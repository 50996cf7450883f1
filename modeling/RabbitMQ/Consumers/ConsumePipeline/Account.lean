import RabbitMQ.Consumers.ConsumePipeline

/-! The account of the settlements of every delivery.

Every route to a settlement goes through `State.settle`, which sends nothing once `__ackSettled` is
set, so the settlements of a delivery are counted by its flag. That the channel is the right one
rests on the processors: a processor only keeps and reports deliveries of its own subscription. -/

namespace RabbitMQ
namespace ConsumePipeline

open Transition

variable {α : Type} {s s' : State α} {env : Env α} {sub : Subscription} {d d' : Delivery α}
  {tag id : Nat}

/-- The content of the delivery was decoded. -/
def Stage.decoded : Stage → Bool
  | .decoding => false
  | .rejected decoded _ => decoded
  | .handling | .returned => true

def State.settlementsOf (s : State α) (tag : Nat) : List Settlement :=
  s.settlements.filter fun f => f.tag = tag

def State.settled (s : State α) (tag : Nat) : Bool := (s.deliveries.get? tag).any (·.ackSettled)

/-- The delivery reached the processor of this subscription. -/
def State.Handed (s : State α) (id tag : Nat) : Prop :=
  ∃ d, s.deliveries.get? tag = some d ∧ d.subscription = id ∧ d.stage.decoded

theorem lookup_eq_some : s.lookup tag = some (d, sub) ↔
    s.deliveries.get? tag = some d ∧ s.subscriptions.get? d.subscription = some sub := by
  simp only [State.lookup, Option.bind_eq_some_iff, Option.map_eq_some_iff, Prod.mk.injEq]
  constructor
  · rintro ⟨d', hd, sub', hsub, rfl, rfl⟩
    exact ⟨hd, hsub⟩
  · rintro ⟨hd, hsub⟩
    exact ⟨d, hd, sub, hsub, rfl, rfl⟩

/-! ## What no step undoes -/

structure Delivery.Evolves (d d' : Delivery α) : Prop where
  subscription : d'.subscription = d.subscription
  channel : d'.channel = d.channel
  message : d'.message = d.message
  settled : d.ackSettled → d'.ackSettled
  decoded : d.stage.decoded → d'.stage.decoded

structure Evolves (s s' : State α) : Prop where
  subscription : ∀ id sub, s.subscriptions.get? id = some sub →
    s'.subscriptions.get? id = some sub
  delivery : ∀ tag d, s.deliveries.get? tag = some d →
    ∃ d', s'.deliveries.get? tag = some d' ∧ d.Evolves d'
  refused : ∀ tag ∈ s.refused, tag ∈ s'.refused

theorem Delivery.Evolves.refl (d : Delivery α) : d.Evolves d := ⟨rfl, rfl, rfl, id, id⟩

theorem Evolves.refl (s : State α) : Evolves s s :=
  ⟨fun _ _ h => h, fun _ d h => ⟨d, h, .refl d⟩, fun _ h => h⟩

theorem Evolves.trans {s'' : State α} (h : Evolves s s') (h' : Evolves s' s'') :
    Evolves s s'' where
  subscription id sub hsub := h'.subscription id sub (h.subscription id sub hsub)
  delivery tag d hd := by
    obtain ⟨d', hd', e⟩ := h.delivery tag d hd
    obtain ⟨d'', hd'', e'⟩ := h'.delivery tag d' hd'
    exact ⟨d'', hd'', e'.subscription.trans e.subscription, e'.channel.trans e.channel,
      e'.message.trans e.message, e'.settled ∘ e.settled, e'.decoded ∘ e.decoded⟩
  refused tag ht := h'.refused tag (h.refused tag ht)

theorem Evolves.put (hd : s.deliveries.get? tag = some d) (e : d.Evolves d') :
    Evolves s { s with deliveries := s.deliveries.set tag d' } where
  subscription _ _ h := h
  delivery t dt ht := by
    rw [OrderedMap.get?_set]
    split
    · next htag =>
      subst htag
      cases hd.symm.trans ht
      exact ⟨d', rfl, e⟩
    · exact ⟨dt, ht, .refl dt⟩
  refused _ h := h

theorem Evolves.handed (h : Evolves s s') : s.Handed id tag → s'.Handed id tag := by
  rintro ⟨d, hd, rfl, hdec⟩
  obtain ⟨d', hd', e⟩ := h.delivery tag d hd
  exact ⟨d', hd', e.subscription, e.decoded hdec⟩

theorem Evolves.known (h : Evolves s s') (ht : tag ∈ s.deliveries) : tag ∈ s'.deliveries := by
  obtain ⟨d, hd⟩ := OrderedMap.mem_iff.mp ht
  obtain ⟨d', hd', -⟩ := h.delivery tag d hd
  exact OrderedMap.mem_of_get? hd'

theorem settle_finished (s : State α) (env : Env α) (channel tag : Nat) (action : Action)
    (origin : Origin) : (s.settle env channel tag action origin).finished = s.finished := by
  unfold State.settle
  repeat' split
  all_goals rfl

theorem setStage_finished (s : State α) (tag : Nat) (stage : Stage) :
    (s.setStage tag stage).finished = s.finished := by
  unfold State.setStage
  split <;> rfl

theorem settle_evolves (s : State α) (env : Env α) (channel tag : Nat) (action : Action)
    (origin : Origin) : Evolves s (s.settle env channel tag action origin) := by
  unfold State.settle
  split
  · exact .refl s
  · next d hd =>
    split
    · exact .refl s
    · split
      · exact ⟨fun _ _ h => h, fun _ d h => ⟨d, h, .refl d⟩, fun _ h => List.mem_cons_of_mem _ h⟩
      · have e : d.Evolves { d with ackSettled := true } :=
          ⟨rfl, rfl, rfl, fun _ => rfl, fun h => h⟩
        obtain ⟨hsub, hdel, href⟩ := Evolves.put hd e
        exact ⟨hsub, hdel, href⟩

theorem setStage_evolves {stage : Stage}
    (hstage : ∀ d, s.deliveries.get? tag = some d → d.stage.decoded → stage.decoded) :
    Evolves s (s.setStage tag stage) := by
  unfold State.setStage
  split
  · exact .refl s
  · next d hd => exact .put hd ⟨rfl, rfl, rfl, fun h => h, hstage d hd⟩

theorem finish_evolves (s : State α) (tag : Nat) : Evolves s (s.finish tag) :=
  ⟨fun _ _ h => h, fun _ d h => ⟨d, h, .refl d⟩, fun _ h => h⟩

theorem settleAck_evolves (s : State α) (env : Env α) (sub : Subscription) (tag : Nat)
    (action : Action) : Evolves s (s.settleAck env sub tag action) := by
  unfold State.settleAck
  split
  · exact .refl s
  · exact settle_evolves ..

theorem report_evolves (s : State α) (env : Env α) (sub : Subscription)
    (o : SequentialProcessor.Output α) : Evolves s (State.report env sub s o) := by
  cases o with
  | onSuccess message _ => exact (settleAck_evolves ..).trans (finish_evolves ..)
  | onFailure message _ requeue _ => exact (settleAck_evolves ..).trans (finish_evolves ..)
  | undecided message => exact finish_evolves ..
  | handled root result => cases result <;> exact setStage_evolves fun _ _ _ => rfl
  | _ => exact .refl s

theorem reports_evolve (env : Env α) (sub : Subscription)
    (out : List (SequentialProcessor.Output α)) (s : State α) :
    Evolves s (out.foldl (State.report env sub) s) := by
  induction out generalizing s with
  | nil => exact .refl s
  | cons o out ih => exact (report_evolves s env sub o).trans (ih _)

theorem advance_evolves (s : State α) (env : Env α) (id : Nat) (sub : Subscription)
    (r : SequentialProcessor.State α × List (SequentialProcessor.Output α)) :
    Evolves s (s.advance env id sub r) := by
  have e := reports_evolve env sub r.2 { s with processors := s.processors.set id r.1 }
  exact ⟨e.subscription, e.delivery, e.refused⟩

theorem catchError_evolves (s : State α) (env : Env α) (sub : Subscription) (message : Message α)
    (error : Value) : Evolves s (s.catchError env sub message error) := by
  unfold State.catchError
  split
  · exact .refl s
  · split
    · exact .refl s
    · exact settleAck_evolves ..

/-! ## Every settlement is counted by the flag of its delivery -/

structure Counted (s : State α) : Prop where
  source : ∀ f ∈ s.settlements, ∃ d sub, s.lookup f.tag = some (d, sub) ∧
    f.channel = sub.channel ∧ (f.origin = .pipeline → sub.noAck = false)
  count : ∀ tag, (s.settlementsOf tag).length = (s.settled tag).toNat

theorem Counted.of_evolves (h : Counted s) (e : Evolves s s')
    (hsent : s'.settlements = s.settlements) (hsettled : ∀ tag, s'.settled tag = s.settled tag) :
    Counted s' where
  source f hf := by
    obtain ⟨d, sub, hlookup, hrest⟩ := h.source f (hsent ▸ hf)
    obtain ⟨hd, hsub⟩ := lookup_eq_some.mp hlookup
    obtain ⟨d', hd', ev⟩ := e.delivery _ d hd
    exact ⟨d', sub, lookup_eq_some.mpr ⟨hd', ev.subscription ▸ e.subscription _ _ hsub⟩, hrest⟩
  count tag := by
    rw [hsettled, ← h.count tag, State.settlementsOf, State.settlementsOf, hsent]

theorem settled_put (hd : s.deliveries.get? tag = some d) (hsame : d'.ackSettled = d.ackSettled)
    (t : Nat) : State.settled { s with deliveries := s.deliveries.set tag d' } t = s.settled t := by
  simp only [State.settled, OrderedMap.get?_set]
  split
  · next ht => simp [ht, hd, hsame]
  · rfl

theorem Counted.setStage (h : Counted s) {stage : Stage}
    (hstage : ∀ d, s.deliveries.get? tag = some d → d.stage.decoded → stage.decoded) :
    Counted (s.setStage tag stage) := by
  refine h.of_evolves (setStage_evolves hstage) ?_ ?_
  · unfold State.setStage; split <;> rfl
  · unfold State.setStage
    split
    · exact fun _ => rfl
    · next d hd => exact settled_put hd rfl

/-! ## Deliveries stay with their subscription -/

variable [DecidableEq α]

/-- Every delivery belongs to a subscription and came on its channel; what a processor keeps was
handed to it. -/
structure Attributed (s : State α) : Prop where
  delivery : ∀ tag d, s.deliveries.get? tag = some d →
    d.message.tag = tag ∧ ∃ sub, s.lookup tag = some (d, sub) ∧ d.channel = sub.channel
  processor : ∀ id p, s.processors.get? id = some p → p.Within (s.Handed id)

/-- A delivery that was there belongs to the same subscription. -/
theorem lookup_before (h : Attributed s) (e : Evolves s s') (hl : s'.lookup tag = some (d', sub))
    (htag : tag ∈ s.deliveries) : ∃ d, s.lookup tag = some (d, sub) := by
  obtain ⟨d, hd⟩ := OrderedMap.mem_iff.mp htag
  obtain ⟨-, sub₀, hl₀, -⟩ := h.delivery tag d hd
  obtain ⟨d₁, hd₁, ev⟩ := e.delivery tag d hd
  obtain ⟨hd', hsub⟩ := lookup_eq_some.mp hl
  cases hd'.symm.trans hd₁
  rw [ev.subscription] at hsub
  cases hsub.symm.trans (e.subscription _ _ (lookup_eq_some.mp hl₀).2)
  exact ⟨d, hl₀⟩

theorem Attributed.put (h : Attributed s) (hd : s.deliveries.get? tag = some d)
    (e : d.Evolves d') : Attributed { s with deliveries := s.deliveries.set tag d' } where
  delivery t dt ht := by
    have hput := Evolves.put hd e
    rw [OrderedMap.get?_set] at ht
    split at ht
    · next htag =>
      cases ht
      subst htag
      obtain ⟨hmessage, sub, hlookup, hchannel⟩ := h.delivery t d hd
      refine ⟨(congrArg Message.tag e.message).trans hmessage, sub, ?_, e.channel.trans hchannel⟩
      exact lookup_eq_some.mpr ⟨OrderedMap.get?_set_self _ _ _,
        e.subscription ▸ (lookup_eq_some.mp hlookup).2⟩
    · next htag =>
      obtain ⟨hmessage, sub, hlookup, hchannel⟩ := h.delivery t dt ht
      refine ⟨hmessage, sub, ?_, hchannel⟩
      exact lookup_eq_some.mpr ⟨by rw [OrderedMap.get?_set, if_neg htag]; exact ht,
        (lookup_eq_some.mp hlookup).2⟩
  processor i p hp := (h.processor i p hp).mono fun _ => (Evolves.put hd e).handed

/-- Only the deliveries, subscriptions and processors matter. -/
theorem Attributed.congr (h : Attributed s) (hd : s'.deliveries = s.deliveries)
    (hsub : s'.subscriptions = s.subscriptions) (hp : s'.processors = s.processors) :
    Attributed s' := by
  obtain ⟨_, _, _, _, _, _⟩ := s
  obtain ⟨_, _, _, _, _, _⟩ := s'
  subst hd hsub hp
  exact ⟨h.delivery, h.processor⟩

theorem Attributed.setStage (h : Attributed s) {stage : Stage}
    (hstage : ∀ d, s.deliveries.get? tag = some d → d.stage.decoded → stage.decoded) :
    Attributed (s.setStage tag stage) := by
  unfold State.setStage
  split
  · exact h
  · next d hd => exact h.put hd ⟨rfl, rfl, rfl, fun h => h, hstage d hd⟩

theorem Attributed.settle (h : Attributed s) (env : Env α) (channel tag : Nat) (action : Action)
    (origin : Origin) : Attributed (s.settle env channel tag action origin) := by
  unfold State.settle
  split
  · exact h
  · next d hd =>
    split
    · exact h
    · split
      · exact h.congr rfl rfl rfl
      · have e : d.Evolves { d with ackSettled := true } :=
          ⟨rfl, rfl, rfl, fun _ => rfl, fun h => h⟩
        exact (h.put hd e).congr rfl rfl rfl

/-- The one place a settlement is sent. -/
theorem Counted.settle (h : Counted s) (ha : Attributed s) {channel : Nat} {action : Action}
    {origin : Origin} (hsource : ∀ d sub, s.lookup tag = some (d, sub) →
      channel = sub.channel ∧ (origin = .pipeline → sub.noAck = false)) :
    Counted (s.settle env channel tag action origin) := by
  have e := settle_evolves s env channel tag action origin
  unfold State.settle at e ⊢
  split at e
  · exact h
  · next d hd =>
    split at e
    · next hset => simp only [hset, if_true]; exact h
    · next hset =>
      split at e
      · next href =>
        simp only [hset, href, if_true, if_false, Bool.false_eq_true]
        exact h.of_evolves e rfl fun _ => rfl
      · next href =>
        simp only [hset, href, if_false, Bool.false_eq_true]
        obtain ⟨-, sub, hl, -⟩ := ha.delivery tag d hd
        refine ⟨fun f hf => ?_, fun t => ?_⟩
        · obtain ⟨dt, sub', hl', hrest⟩ : ∃ dt sub', s.lookup f.tag = some (dt, sub') ∧
              f.channel = sub'.channel ∧ (f.origin = .pipeline → sub'.noAck = false) := by
            rcases List.mem_append.mp hf with hf | hf
            · exact h.source f hf
            · obtain rfl := List.mem_singleton.mp hf
              exact ⟨d, sub, hl, hsource d sub hl⟩
          obtain ⟨hdt, hsub'⟩ := lookup_eq_some.mp hl'
          obtain ⟨d', hd', ev⟩ := e.delivery _ dt hdt
          exact ⟨d', sub', lookup_eq_some.mpr ⟨hd', ev.subscription ▸ hsub'⟩, hrest⟩
        · have hcount := h.count t
          simp only [State.settlementsOf, State.settled, List.filter_append, List.length_append,
            OrderedMap.get?_set] at hcount ⊢
          by_cases ht : t = tag
          · subst ht
            simp_all
          · simp_all [Ne.symm ht]

/-! ## Every step keeps the account -/

structure Accounted (s : State α) : Prop where
  attributed : Attributed s
  counted : Counted s
  known : ∀ tag ∈ s.finished, tag ∈ s.deliveries

theorem Accounted.setStage (h : Accounted s) {stage : Stage}
    (hstage : ∀ d, s.deliveries.get? tag = some d → d.stage.decoded → stage.decoded) :
    Accounted (s.setStage tag stage) :=
  ⟨h.attributed.setStage hstage, h.counted.setStage hstage, fun t ht =>
    (setStage_evolves hstage).known (h.known t (setStage_finished s tag stage ▸ ht))⟩

theorem Accounted.finish (h : Accounted s) (htag : tag ∈ s.deliveries) :
    Accounted (s.finish tag) := by
  refine ⟨h.attributed.congr rfl rfl rfl,
    h.counted.of_evolves (finish_evolves s tag) rfl fun _ => rfl, fun t ht => ?_⟩
  rcases List.mem_cons.mp ht with rfl | ht
  · exact htag
  · exact h.known t ht

/-- The pipeline settles on the channel of the subscription the delivery belongs to. -/
theorem Accounted.settleAck (h : Accounted s)
    (hsub : ∀ d sub', s.lookup tag = some (d, sub') → sub' = sub) (action : Action) :
    Accounted (s.settleAck env sub tag action) := by
  unfold State.settleAck
  split
  · exact h
  · next hnoAck =>
    refine ⟨h.attributed.settle .., h.counted.settle h.attributed fun d sub' hl => ?_, fun t ht =>
      (settle_evolves ..).known (h.known t (settle_finished .. ▸ ht))⟩
    obtain rfl := hsub d sub' hl
    exact ⟨rfl, fun _ => by simpa using hnoAck⟩

theorem Accounted.application (h : Accounted s) (hd : s.deliveries.get? tag = some d)
    (action : Action) : Accounted (s.settle env d.channel tag action .application) := by
  refine ⟨h.attributed.settle .., h.counted.settle h.attributed fun d' sub hl => ?_, fun t ht =>
    (settle_evolves ..).known (h.known t (settle_finished .. ▸ ht))⟩
  obtain ⟨-, sub', hl', hchannel⟩ := h.attributed.delivery tag d hd
  obtain rfl := Option.some.inj ((lookup_eq_some.mp hl).1.symm.trans hd)
  cases hl.symm.trans hl'
  exact ⟨hchannel, nofun⟩

omit [DecidableEq α] in
theorem State.Handed.lookup (h : s.Handed id tag) (hsub : s.subscriptions.get? id = some sub) :
    ∃ d, s.lookup tag = some (d, sub) ∧ d.stage.decoded := by
  obtain ⟨d, hd, rfl, hdec⟩ := h
  exact ⟨d, lookup_eq_some.mpr ⟨hd, hsub⟩, hdec⟩

omit [DecidableEq α] in
theorem State.Handed.sub_eq (h : s.Handed id tag) (hsub : s.subscriptions.get? id = some sub)
    (d : Delivery α) (sub' : Subscription) (hl : s.lookup tag = some (d, sub')) : sub' = sub := by
  obtain ⟨d', hl', -⟩ := h.lookup hsub
  cases hl.symm.trans hl'
  rfl

theorem Accounted.report (h : Accounted s) (hsub : s.subscriptions.get? id = some sub)
    {o : SequentialProcessor.Output α} (ho : o.Within (s.Handed id)) :
    Accounted (State.report env sub s o) := by
  have hreported : ∀ tag action, s.Handed id tag →
      Accounted ((s.settleAck env sub tag action).finish tag) := fun tag action htag => by
    refine (h.settleAck (htag.sub_eq hsub) action).finish ?_
    obtain ⟨d, hd, -⟩ := (settleAck_evolves s env sub tag action).handed htag
    exact OrderedMap.mem_of_get? hd
  cases o with
  | onSuccess message _ => exact hreported _ _ ho
  | onFailure message _ requeue _ => exact hreported _ _ ho
  | undecided message =>
    obtain ⟨d, hd, -⟩ := ho
    exact h.finish (OrderedMap.mem_of_get? hd)
  | handled root result => cases result <;> exact h.setStage fun _ _ _ => rfl
  | _ => exact h

omit [DecidableEq α] in
theorem Evolves.within (e : Evolves s s') {o : SequentialProcessor.Output α}
    (ho : o.Within (s.Handed id)) : o.Within (s'.Handed id) := by
  cases o with
  | removed _ _ => trivial
  | visited _ _ _ => trivial
  | sweepFailed _ => trivial
  | _ => exact e.handed ho

theorem Accounted.reports (h : Accounted s) (hsub : s.subscriptions.get? id = some sub)
    {out : List (SequentialProcessor.Output α)} (hout : ∀ o ∈ out, o.Within (s.Handed id)) :
    Accounted (out.foldl (State.report env sub) s) := by
  induction out generalizing s with
  | nil => exact h
  | cons o out ih =>
    have e := report_evolves s env sub o
    exact ih (h.report hsub (hout o List.mem_cons_self)) (e.subscription _ _ hsub) fun o' ho' =>
      e.within (hout o' (List.mem_cons_of_mem _ ho'))

theorem Accounted.setProcessor (h : Accounted s) {p : SequentialProcessor.State α}
    (hp : p.Within (s.Handed id)) :
    Accounted { s with processors := s.processors.set id p } := by
  refine ⟨⟨h.attributed.delivery, fun i q hq => ?_⟩, ⟨h.counted.source, h.counted.count⟩, h.known⟩
  rw [OrderedMap.get?_set] at hq
  split at hq
  · next hi => cases hq; exact hi ▸ hp
  · exact h.attributed.processor i q hq

theorem Accounted.advance (h : Accounted s) (env : Env α) (hsub : s.subscriptions.get? id = some sub)
    {r : SequentialProcessor.State α × List (SequentialProcessor.Output α)}
    (hr : SequentialProcessor.Keeps (s.Handed id) r) : Accounted (s.advance env id sub r) :=
  (h.setProcessor hr.1).reports hsub hr.2

/-- A processor awaits the handlers of its own deliveries. -/
theorem throwing_handed (h : Attributed s) {p : SequentialProcessor.State α}
    (hp : s.processors.get? id = some p) {event : SequentialProcessor.Event α}
    (ht : throwing p event = some tag) : s.Handed id tag := by
  cases event with
  | callbackRejected root error =>
    simp only [throwing] at ht
    split at ht
    · next hcall =>
      cases ht
      exact (h.processor id p hp).frame root _ hcall _ List.mem_cons_self
    · cases ht
  | _ => cases ht

/-- A delivery is at its handler when its processor takes it, which reports of what it was handed. -/
theorem Accounted.delivers (h : Accounted s) (hooks : SequentialProcessor.Hooks α)
    (hd : s.lookup tag = some (d, sub)) {p : SequentialProcessor.State α}
    (hp : (s.setStage d.message.tag .handling).processors.get? d.subscription = some p) :
    (s.setStage d.message.tag .handling).subscriptions.get? d.subscription = some sub ∧
      SequentialProcessor.Keeps ((s.setStage d.message.tag .handling).Handed d.subscription)
        (SequentialProcessor.deliver hooks p d.message) := by
  obtain ⟨hget, hsub⟩ := lookup_eq_some.mp hd
  obtain ⟨htag, -⟩ := h.attributed.delivery tag d hget
  have hs : Accounted (s.setStage d.message.tag .handling) := h.setStage fun _ _ _ => rfl
  have e : Evolves s (s.setStage d.message.tag .handling) := setStage_evolves fun _ _ _ => rfl
  have hhanded : (s.setStage d.message.tag .handling).Handed d.subscription d.message.tag := by
    rw [htag]
    simp only [State.setStage, hget]
    exact ⟨_, OrderedMap.get?_set_self _ _ _, rfl, rfl⟩
  exact ⟨e.subscription _ _ hsub,
    SequentialProcessor.deliver_within (hs.attributed.processor _ p hp) hhanded⟩

theorem Accounted.processMessage (h : Accounted s) (hd : s.lookup tag = some (d, sub)) :
    Accounted (s.processMessage env d sub) := by
  have hs : Accounted (s.setStage d.message.tag .handling) := h.setStage fun _ _ _ => rfl
  simp only [State.processMessage]
  split
  · next staleTimeout p hseq hp =>
    obtain ⟨hsub, hkeeps⟩ := h.delivers _ hd hp
    exact hs.advance env hsub hkeeps
  · exact hs

theorem Accounted.catchError (h : Accounted s) (hd : s.lookup tag = some (d, sub))
    (error : Value) : Accounted (s.catchError env sub d.message error) := by
  obtain ⟨hget, hsub⟩ := lookup_eq_some.mp hd
  obtain ⟨htag, -⟩ := h.attributed.delivery tag d hget
  unfold State.catchError
  split
  · exact h
  · split
    · exact h
    · refine h.settleAck (fun d' sub' hl => ?_) _
      cases (htag ▸ hl).symm.trans hd
      rfl

theorem Accounted.complete (h : Accounted s) (hd : s.lookup tag = some (d, sub)) :
    Accounted (s.complete env d sub) := by
  obtain ⟨hget, hsub⟩ := lookup_eq_some.mp hd
  obtain ⟨htag, -⟩ := h.attributed.delivery tag d hget
  have hacked : Accounted ((s.settleAck env sub d.message.tag .ack).finish d.message.tag) := by
    refine (h.settleAck (fun d' sub' hl => ?_) _).finish ?_
    · cases (htag ▸ hl).symm.trans hd
      rfl
    · exact (settleAck_evolves ..).known (htag.symm ▸ OrderedMap.mem_of_get? hget)
  simp only [State.complete]
  split <;> exact hacked.setStage fun _ _ _ => rfl

variable [ToString α]

theorem Steps.accounted {event : Event α} (H : Steps env s event s') (h : Accounted s) :
    Accounted s' := by
  cases H with
  | @subscribe id sub hfresh =>
    have hold : ∀ i sub', s.subscriptions.get? i = some sub' →
        (s.subscriptions.set id sub).get? i = some sub' := fun i sub' hi => by
      rw [OrderedMap.get?_set, if_neg]
      · exact hi
      · rintro rfl
        exact hfresh (OrderedMap.mem_of_get? hi)
    have e : Evolves s { s with
        subscriptions := s.subscriptions.set id sub
        processors := if sub.sequential.isSome then
          s.processors.set id SequentialProcessor.start else s.processors } :=
      ⟨hold, fun _ d hd => ⟨d, hd, .refl d⟩, fun _ h => h⟩
    refine ⟨⟨fun tag d hd => ?_, fun i p hp => ?_⟩, h.counted.of_evolves e rfl fun _ => rfl, h.known⟩
    · obtain ⟨hmessage, sub', hl, hchannel⟩ := h.attributed.delivery tag d hd
      exact ⟨hmessage, sub',
        lookup_eq_some.mpr ⟨hd, hold _ _ (lookup_eq_some.mp hl).2⟩, hchannel⟩
    · simp only at hp
      split at hp
      · rw [OrderedMap.get?_set] at hp
        split at hp
        · cases hp; exact SequentialProcessor.State.within_start
        · exact (h.attributed.processor i p hp).mono fun _ => e.handed
      · exact (h.attributed.processor i p hp).mono fun _ => e.handed
  | @deliver id sub message hsub hfresh =>
    have hnone := OrderedMap.not_mem_iff.mp hfresh
    have e : Evolves s { s with
        deliveries := s.deliveries.set message.tag
          ⟨id, sub.channel, message, false, .decoding⟩ } := by
      refine ⟨fun _ _ h => h, fun tag d hd => ⟨d, ?_, .refl d⟩, fun _ h => h⟩
      rw [OrderedMap.get?_set, if_neg]
      · exact hd
      · rintro rfl
        exact hfresh (OrderedMap.mem_of_get? hd)
    refine ⟨⟨fun tag d hd => ?_, fun i p hp => ?_⟩, h.counted.of_evolves e rfl fun tag => ?_,
      fun t ht => e.known (h.known t ht)⟩
    · rw [OrderedMap.get?_set] at hd
      split at hd
      · next htag =>
        cases hd
        subst htag
        exact ⟨rfl, sub, lookup_eq_some.mpr ⟨OrderedMap.get?_set_self _ _ _, hsub⟩, rfl⟩
      · next htag =>
        obtain ⟨hmessage, sub', hl, hchannel⟩ := h.attributed.delivery tag d hd
        refine ⟨hmessage, sub', lookup_eq_some.mpr ⟨?_, (lookup_eq_some.mp hl).2⟩, hchannel⟩
        rw [OrderedMap.get?_set, if_neg htag]
        exact hd
    · exact (h.attributed.processor i p hp).mono fun _ => e.handed
    · simp only [State.settled, OrderedMap.get?_set]
      split
      · next htag => subst htag; rw [hnone]; rfl
      · rfl
  | decoded hd hstage => exact h.processMessage hd
  | undecodable hd hstage =>
    refine (h.finish (OrderedMap.mem_of_get? (lookup_eq_some.mp hd).1)).setStage fun d' hd' hdec => ?_
    cases (lookup_eq_some.mp hd).1.symm.trans hd'
    rw [hstage] at hdec
    cases hdec
  | callbackResolved hd hstage hplain => exact h.complete hd
  | callbackRejected hd hstage hplain =>
    exact (h.finish (OrderedMap.mem_of_get? (lookup_eq_some.mp hd).1)).setStage fun _ _ _ => rfl
  | caught hd hstage => exact (h.catchError hd _).setStage fun _ _ _ => rfl
  | @processor id sub p staleTimeout event r hsub hp hseq hlater hs =>
    have hr : SequentialProcessor.Keeps (s.Handed id) r :=
      (SequentialProcessor.step_cases hs).within (h.attributed.processor id p hp)
        fun message hm => absurd hm (hlater message)
    have hs' := h.advance env hsub hr
    cases hthrow : throwing p event with
    | none => exact hs'
    | some tag =>
      obtain ⟨d, hd, -⟩ := throwing_handed h.attributed hp hthrow
      exact hs'.finish ((advance_evolves s env id sub r).known (OrderedMap.mem_of_get? hd))
  | ackMessage hmem =>
    unfold State.ackMessage
    split
    · exact h
    · exact h.application ‹_› _
  | nackMessage hmem =>
    unfold State.nackMessage
    split
    · exact h
    · exact h.application ‹_› _

omit [ToString α] in
theorem accounted_start : Accounted (start : State α) :=
  ⟨⟨nofun, nofun⟩, ⟨nofun, fun _ => rfl⟩, nofun⟩

theorem accounted {ok : State α → Env α × Event α → Prop} (hr : Reach step ok start s) :
    Accounted s :=
  hr.invariant accounted_start fun h _ hs => (step_cases hs).accounted h

end ConsumePipeline
end RabbitMQ
