import RabbitMQ.Consumers.ConsumePipeline.Account

/-! A delivery passes through the consume pipeline once: a step takes on the callback of one delivery
at most, and a callback that has returned does not run again. -/

namespace RabbitMQ

namespace SequentialProcessor

variable {α : Type}

/-- The call of `handle` that settles. -/
def Output.root? : Output α → Option Nat
  | .handled root _ => some root
  | _ => none

/-- The call of `handle` that an event takes on. -/
def Event.root? : Event α → Option Nat
  | .callbackResolved root | .callbackRejected root _ | .processDependents root => some root
  | _ => none

variable {c : Config} {h : Hooks α} {s : State α} {root : Nat}

/-- The call of `root` goes on, or settles and is over. -/
structure Answers (root : Nat) (s : State α) (r : State α × List (Output α)) : Prop where
  calls : ∀ j ∈ r.1.calls, j = root ∨ j ∈ s.calls
  handled : ∀ o ∈ r.2, ∀ j, o.root? = some j → j = root ∧ root ∉ r.1.calls

theorem Answers.append {r : State α × List (Output α)} (hr : Answers root s r)
    {out : List (Output α)} (hout : ∀ o ∈ out, o.root? = none) :
    Answers root s (r.1, out ++ r.2) where
  calls := hr.calls
  handled := by
    intro o ho j hj
    rcases List.mem_append.mp ho with ho | ho
    · cases (hout o ho).symm.trans hj
    · exact hr.handled o ho j hj

theorem Answers.of_calls {s' : State α} {r : State α × List (Output α)}
    (hcalls : s'.calls = s.calls) (hr : Answers root s' r) : Answers root s r :=
  ⟨hcalls ▸ hr.calls, hr.handled⟩

/-- The call is suspended again. -/
theorem Answers.suspends {s' : State α} (hcalls : s'.calls = s.calls) (stack : List (Frame α)) :
    Answers root s ({ s' with calls := s'.calls.set root stack }, []) where
  calls := by
    intro j hj
    rw [← hcalls]
    exact OrderedMap.mem_set.mp hj
  handled := List.forall_mem_nil _

variable [DecidableEq α]

theorem removeProcessing_root? (messageId : Option α) (cause : Cause) :
    ∀ o ∈ (s.removeProcessing messageId cause).2, o.root? = none := by
  intro o ho
  cases messageId with
  | none => cases ho
  | some id =>
    simp only [State.removeProcessing] at ho
    split at ho
    · obtain rfl := List.mem_singleton.mp ho
      rfl
    · cases ho

theorem processCatch_root? (frame : Frame α) (error : Value) :
    (processCatch c h s frame error).1.calls = s.calls ∧
      ∀ o ∈ (processCatch c h s frame error).2.1, o.root? = none := by
  have hframe := removeProcessing_frame s frame.message.messageId .failure
  have hcalls : (s.removeProcessing frame.message.messageId .failure).1.calls = s.calls := by
    rw [hframe]
  have hremoved := removeProcessing_root? (s := s) frame.message.messageId .failure
  simp only [processCatch]
  split
  · exact ⟨hcalls, hremoved⟩
  · split
    · exact ⟨hcalls, hremoved⟩
    · refine ⟨hcalls, fun o ho => ?_⟩
      rcases List.mem_append.mp ho with ho | ho
      · exact hremoved o ho
      · obtain rfl := List.mem_singleton.mp ho
        rfl

/-- By induction on the stack, which a rejection unwinds. -/
theorem settle_answers (result : Except Value Unit) (stack : List (Frame α)) :
    Answers root s (settle c h root s result stack) := by
  induction stack generalizing s result with
  | nil =>
    refine ⟨fun j hj => .inr (OrderedMap.mem_erase.mp hj).2, fun o ho j hj => ?_⟩
    obtain rfl := List.mem_singleton.mp ho
    cases hj
    exact ⟨rfl, fun hroot => (OrderedMap.mem_erase.mp hroot).1 rfl⟩
  | cons frame rest ih =>
    cases result with
    | ok u => exact .suspends rfl _
    | error e =>
      obtain ⟨hcalls, hout⟩ := processCatch_root? (c := c) (h := h) (s := s) frame e
      exact (Answers.of_calls hcalls (ih _)).append hout

theorem callbackResolved_answers (frame : Frame α) (rest : List (Frame α)) :
    Answers root s (callbackResolved c h s root frame rest) := by
  have hframe := removeProcessing_frame s frame.message.messageId .success
  have hremoved := removeProcessing_root? (s := s) frame.message.messageId .success
  have hout : ∀ o ∈ (s.removeProcessing frame.message.messageId .success).2 ++
      [.onSuccess frame.message (.ran (s.now - frame.startTime))], o.root? = none := by
    intro o ho
    rcases List.mem_append.mp ho with ho | ho
    · exact hremoved o ho
    · obtain rfl := List.mem_singleton.mp ho
      rfl
  cases hreturn : h.onSuccess frame.message with
  | error e =>
    simp only [callbackResolved, hreturn]
    refine (Answers.of_calls ?_ (settle_answers _ _)).append ?_
    · rw [hframe]
    · rw [hframe]
      exact hout
  | ok u =>
    rw [callbackResolved_ok c root hreturn]
    refine ⟨fun j hj => OrderedMap.mem_set.mp hj, fun o ho j hj => ?_⟩
    cases (hout o ho).symm.trans hj

theorem Handles.root? {message : Message α} {r : State α × List (Output α) × Progress α}
    (H : Handles h s message r) : ∀ o ∈ r.2.1, o.root? = none := by
  intro o ho
  cases H with
  | duplicate | runs =>
    obtain rfl := List.mem_singleton.mp ho
    rfl
  | parks => cases ho

theorem processDependent_answers (frame : Frame α) (pendingId : α) (remaining : List α)
    (rest : List (Frame α)) :
    Answers root s (processDependent c h s root frame pendingId remaining rest) := by
  simp only [processDependent]
  split
  · refine ⟨fun j hj => OrderedMap.mem_set.mp hj, fun o ho j hj => ?_⟩
    obtain rfl := List.mem_singleton.mp ho
    cases hj
  · next pendingData hget =>
    have H := handle_cases h { s with pending := s.pending.erase pendingId } pendingData.message
    have hcalls : (handle h { s with pending := s.pending.erase pendingId }
        pendingData.message).1.calls = s.calls := by rw [H.frame]
    have hout := H.root?
    generalize handle h { s with pending := s.pending.erase pendingId } pendingData.message = r
      at hcalls hout ⊢
    obtain ⟨s₁, out, progress⟩ := r
    have hmarks : ∀ o ∈ Output.visited root rest.length pendingId ::
        Output.removed pendingId .released :: out, o.root? = none := by
      rintro o (_ | ⟨_, _ | ⟨_, ho⟩⟩)
      · rfl
      · rfl
      · exact hout o ho
    cases progress with
    | resolved => exact (Answers.of_calls hcalls (settle_answers _ _)).append hmarks
    | rejected e => exact (Answers.of_calls hcalls (settle_answers _ _)).append hmarks
    | running child => exact (Answers.suspends hcalls _).append hmarks

theorem deliver_answers {message : Message α} (hfresh : message.tag ∉ s.calls) :
    Answers message.tag s (deliver h s message) := by
  have H := handle_cases h { s with handled := message.tag :: s.handled } message
  have hcalls : (handle h { s with handled := message.tag :: s.handled } message).1.calls =
      s.calls := by rw [H.frame]
  have hout := H.root?
  simp only [deliver]
  generalize handle h { s with handled := message.tag :: s.handled } message = r at hcalls hout ⊢
  obtain ⟨s₁, out, progress⟩ := r
  have hsettles : ∀ result, Answers message.tag s (s₁, out ++ [.handled message.tag result]) := by
    intro result
    have hanswer : Answers message.tag s (s₁, [.handled message.tag result]) := by
      refine ⟨fun j hj => .inr (hcalls ▸ hj), fun o ho j hj => ?_⟩
      obtain rfl := List.mem_singleton.mp ho
      cases hj
      exact ⟨rfl, fun hmem => hfresh (hcalls ▸ hmem)⟩
    exact hanswer.append hout
  cases progress with
  | resolved => exact hsettles _
  | rejected e => exact hsettles _
  | running frame =>
    have hsuspends : Answers message.tag s _ := (Answers.suspends hcalls [frame]).append hout
    rw [List.append_nil] at hsuspends
    exact hsuspends

theorem sweepPending_root? [ToString α] (entries : List (α × Parked α)) :
    ∀ o ∈ (sweepPending c h entries s).2, o.root? = none := by
  induction entries generalizing s with
  | nil => exact List.forall_mem_nil _
  | cons e entries ih =>
    obtain ⟨messageId, data⟩ := e
    simp only [sweepPending]
    split
    · split
      · simp [Output.root?]
      · split
        · simp [Output.root?]
        · simpa [Output.root?] using ih
    · exact ih

/-- A step takes on one call of `handle`, or none. -/
theorem Steps.answers [ToString α] {event : Event α} {r : State α × List (Output α)}
    (H : Steps c h s event r) (hlater : ∀ message, event ≠ .handle message) :
    (∃ root, event.root? = some root ∧ root ∈ s.calls ∧ Answers root s r) ∨
      (event.root? = none ∧ r.1.calls = s.calls ∧ ∀ o ∈ r.2, o.root? = none) := by
  cases H with
  | handle => exact absurd rfl (hlater _)
  | callbackResolved hcall =>
    exact .inl ⟨_, rfl, OrderedMap.mem_of_get? hcall, callbackResolved_answers _ _⟩
  | callbackRejected hcall | loopEnds hcall =>
    exact .inl ⟨_, rfl, OrderedMap.mem_of_get? hcall, settle_answers _ _⟩
  | loopTurns hcall =>
    exact .inl ⟨_, rfl, OrderedMap.mem_of_get? hcall, processDependent_answers _ _ _ _⟩
  | cleanup hlive =>
    refine .inr ⟨rfl, ?_, fun o ho => ?_⟩
    · exact (congrArg State.calls (sweepPending_frame c h s.pending.entries
        (sweepProcessing c s).1) :)
    · rcases List.mem_append.mp ho with ho | ho
      · obtain ⟨id, _, rfl⟩ := List.mem_map.mp ho
        rfl
      · exact sweepPending_root? _ o ho
  | dispose => exact .inr ⟨rfl, rfl, List.forall_mem_nil _⟩
  | tick => exact .inr ⟨rfl, rfl, List.forall_mem_nil _⟩

end SequentialProcessor

namespace ConsumePipeline

open Transition

variable {α : Type} {s s' : State α} {env : Env α} {sub : Subscription} {d : Delivery α}
  {tag id : Nat}

/-- The consume callback has not returned. -/
def Stage.inside : Stage → Bool
  | .returned => false
  | _ => true

/-- The subscription of a delivery, and where its callback is. -/
def State.place? (s : State α) (tag : Nat) : Option (Nat × Stage) :=
  (s.deliveries.get? tag).map fun d => (d.subscription, d.stage)

/-- The consume callback of a delivery has been called, and has not returned. -/
def State.isInside (s : State α) (tag : Nat) : Bool := (s.place? tag).any (·.2.inside)

/-- The delivery whose callback an event takes on. -/
def Event.delivery? : Event α → Option Nat
  | .decoded tag | .undecodable tag _ | .callbackResolved tag | .callbackRejected tag _
  | .caught tag => some tag
  | .processor _ event => event.root?
  | _ => none

/-! ## What the parts of a step do to the stages -/

/-- The same deliveries of the same subscriptions, of which one at most is in another stage. -/
structure Moves (moved : Option Nat) (s s' : State α) : Prop where
  keys : s'.deliveries.keys = s.deliveries.keys
  subscription : ∀ tag, (s'.place? tag).map Prod.fst = (s.place? tag).map Prod.fst
  others : ∀ tag, moved ≠ some tag → s'.place? tag = s.place? tag

variable {moved : Option Nat}

theorem Moves.of_eq (h : s'.deliveries = s.deliveries) : Moves moved s s' := by
  refine ⟨?_, fun tag => ?_, fun tag _ => ?_⟩
  · rw [h]
  · rw [State.place?, State.place?, h]
  · rw [State.place?, State.place?, h]

theorem Moves.trans {s'' : State α} (h : Moves moved s s') (h' : Moves moved s' s'') :
    Moves moved s s'' :=
  ⟨h'.keys.trans h.keys, fun tag => (h'.subscription tag).trans (h.subscription tag),
    fun tag hne => (h'.others tag hne).trans (h.others tag hne)⟩

theorem place?_set {d' : Delivery α} (t : Nat) :
    State.place? { s with deliveries := s.deliveries.set tag d' } t =
      if t = tag then some (d'.subscription, d'.stage) else s.place? t := by
  rw [State.place?, State.place?, OrderedMap.get?_set]
  split <;> rfl

theorem place?_of_get? (hd : s.deliveries.get? tag = some d) :
    s.place? tag = some (d.subscription, d.stage) := by
  rw [State.place?, hd]
  rfl

/-- Writing a delivery that stays with its subscription. -/
theorem Moves.put {d' : Delivery α} (hd : s.deliveries.get? tag = some d)
    (hsub : d'.subscription = d.subscription) (hstage : moved = some tag ∨ d'.stage = d.stage) :
    Moves moved s { s with deliveries := s.deliveries.set tag d' } where
  keys := OrderedMap.keys_set_of_mem (OrderedMap.mem_of_get? hd) _
  subscription := by
    intro t
    rw [place?_set]
    split
    · next ht => rw [ht, place?_of_get? hd, Option.map_some, Option.map_some, hsub]
    · rfl
  others := by
    intro t hne
    rw [place?_set]
    split
    · next ht =>
      subst ht
      rw [place?_of_get? hd, hsub, hstage.resolve_left hne]
    · rfl

theorem Moves.settle (env : Env α) (channel tag : Nat) (action : Action) (origin : Origin) :
    Moves moved s (s.settle env channel tag action origin) := by
  unfold State.settle
  split
  · exact .of_eq rfl
  · next d hd =>
    split
    · exact .of_eq rfl
    · split
      · exact .of_eq rfl
      · have hput : Moves moved s
            { s with deliveries := s.deliveries.set tag { d with ackSettled := true } } :=
          .put hd rfl (.inr rfl)
        exact hput.trans (.of_eq rfl)

theorem Moves.settleAck (env : Env α) (sub : Subscription) (tag : Nat) (action : Action) :
    Moves moved s (s.settleAck env sub tag action) := by
  unfold State.settleAck
  split
  · exact .of_eq rfl
  · exact .settle ..

theorem Moves.setStage (stage : Stage) : Moves (some tag) s (s.setStage tag stage) := by
  unfold State.setStage
  split
  · exact .of_eq rfl
  · next d hd => exact .put hd rfl (.inl rfl)

theorem Moves.finish_setStage (stage : Stage) :
    Moves (some tag) s ((s.finish tag).setStage tag stage) := by
  have hfinish : Moves (some tag) s (s.finish tag) := .of_eq rfl
  exact hfinish.trans (.setStage stage)

theorem Moves.catchError (env : Env α) (sub : Subscription) (message : Message α) (error : Value) :
    Moves moved s (s.catchError env sub message error) := by
  unfold State.catchError
  split
  · exact .of_eq rfl
  · split
    · exact .of_eq rfl
    · exact .settleAck ..

theorem Moves.complete (env : Env α) (sub : Subscription) :
    Moves (some d.message.tag) s (s.complete env d sub) := by
  have hacked : Moves (some d.message.tag) s (s.settleAck env sub d.message.tag .ack) :=
    .settleAck ..
  unfold State.complete
  dsimp only
  split <;> exact hacked.trans (.finish_setStage _)

theorem Moves.report {o : SequentialProcessor.Output α}
    (ho : ∀ root, o.root? = some root → moved = some root) :
    Moves moved s (State.report env sub s o) := by
  cases o with
  | onSuccess | onFailure => exact (Moves.settleAck ..).trans (.of_eq rfl)
  | handled root result =>
    obtain rfl := ho root rfl
    cases result <;> exact .setStage _
  | _ => exact .of_eq rfl

theorem Moves.reports {out : List (SequentialProcessor.Output α)}
    (hout : ∀ o ∈ out, ∀ root, o.root? = some root → moved = some root) :
    Moves moved s (out.foldl (State.report env sub) s) := by
  induction out generalizing s with
  | nil => exact .of_eq rfl
  | cons o out ih =>
    have hfirst : Moves moved s (State.report env sub s o) :=
      .report (hout o List.mem_cons_self)
    exact hfirst.trans (ih fun o' ho' => hout o' (List.mem_cons_of_mem _ ho'))

theorem Moves.advance {r : SequentialProcessor.State α × List (SequentialProcessor.Output α)}
    (hout : ∀ o ∈ r.2, ∀ root, o.root? = some root → moved = some root) :
    Moves moved s (s.advance env id sub r) := by
  have hput : Moves moved s { s with processors := s.processors.set id r.1 } := .of_eq rfl
  exact hput.trans (.reports hout)

/-! ## Subscriptions and processors -/

theorem settle_processors (env : Env α) (channel tag : Nat) (action : Action) (origin : Origin) :
    (s.settle env channel tag action origin).subscriptions = s.subscriptions ∧
      (s.settle env channel tag action origin).processors = s.processors := by
  unfold State.settle
  split
  · exact ⟨rfl, rfl⟩
  · split
    · exact ⟨rfl, rfl⟩
    · split <;> exact ⟨rfl, rfl⟩

theorem settleAck_processors (env : Env α) (sub : Subscription) (tag : Nat) (action : Action) :
    (s.settleAck env sub tag action).subscriptions = s.subscriptions ∧
      (s.settleAck env sub tag action).processors = s.processors := by
  unfold State.settleAck
  split
  · exact ⟨rfl, rfl⟩
  · exact settle_processors ..

theorem setStage_processors (stage : Stage) :
    (s.setStage tag stage).subscriptions = s.subscriptions ∧
      (s.setStage tag stage).processors = s.processors := by
  unfold State.setStage
  split <;> exact ⟨rfl, rfl⟩

theorem report_processors (o : SequentialProcessor.Output α) :
    (State.report env sub s o).subscriptions = s.subscriptions ∧
      (State.report env sub s o).processors = s.processors := by
  cases o with
  | onSuccess | onFailure => exact settleAck_processors ..
  | handled root result => cases result <;> exact setStage_processors _
  | _ => exact ⟨rfl, rfl⟩

theorem reports_processors (out : List (SequentialProcessor.Output α)) :
    (out.foldl (State.report env sub) s).subscriptions = s.subscriptions ∧
      (out.foldl (State.report env sub) s).processors = s.processors := by
  induction out generalizing s with
  | nil => exact ⟨rfl, rfl⟩
  | cons o out ih =>
    obtain ⟨hsubs, hprocessors⟩ : (State.report env sub s o).subscriptions = _ ∧
        (State.report env sub s o).processors = _ := report_processors o
    exact ⟨ih.1.trans hsubs, ih.2.trans hprocessors⟩

theorem advance_processors
    (r : SequentialProcessor.State α × List (SequentialProcessor.Output α)) :
    (s.advance env id sub r).subscriptions = s.subscriptions ∧
      (s.advance env id sub r).processors = s.processors.set id r.1 :=
  reports_processors r.2

/-! ## Running callbacks -/

/-- A processor holds a call for a delivery only while the consume callback awaits it. -/
structure Running (s : State α) : Prop where
  sequential : ∀ id p, s.processors.get? id = some p →
    ∃ sub, s.subscriptions.get? id = some sub ∧ sub.sequential.isSome
  called : ∀ id p, s.processors.get? id = some p → ∀ root ∈ p.calls,
    s.place? root = some (id, .handling)

theorem running_start : Running (start : State α) := ⟨nofun, nofun⟩

/-- The deliveries that await a processor stay where they are. -/
theorem Running.of_moves (h : Running s) (hmoves : Moves moved s s')
    (hsubs : s'.subscriptions = s.subscriptions) (hprocessors : s'.processors = s.processors)
    (hmoved : ∀ tag id sub, moved = some tag → s.place? tag = some (id, .handling) →
      s.subscriptions.get? id = some sub → sub.sequential = none) : Running s' where
  sequential := by
    rw [hsubs, hprocessors]
    exact h.sequential
  called := by
    rw [hprocessors]
    intro id p hp root hroot
    have hplace := h.called id p hp root hroot
    obtain ⟨sub, hsub, hsequential⟩ := h.sequential id p hp
    have hother : moved ≠ some root := by
      intro heq
      rw [hmoved root id sub heq hplace hsub] at hsequential
      cases hsequential
    rw [hmoves.others root hother, hplace]

/-- A processor takes a step: what it holds afterwards awaits its call. -/
theorem Running.advance (h : Running s) (hsub : s.subscriptions.get? id = some sub)
    (hsequential : sub.sequential.isSome)
    {r : SequentialProcessor.State α × List (SequentialProcessor.Output α)}
    (hout : ∀ o ∈ r.2, ∀ root, o.root? = some root → moved = some root)
    (hmoved : ∀ tag i, moved = some tag → s.place? tag = some (i, .handling) → i = id)
    (hcalls : ∀ root ∈ r.1.calls, s.place? root = some (id, .handling) ∧
      (moved = some root → ∀ o ∈ r.2, o.root? ≠ some root)) :
    Running (s.advance env id sub r) where
  sequential := by
    intro i p hp
    rw [(advance_processors r).1]
    rw [(advance_processors r).2, OrderedMap.get?_set] at hp
    split at hp
    · next hi => exact ⟨sub, hi ▸ hsub, hsequential⟩
    · exact h.sequential i p hp
  called := by
    intro i p hp root hroot
    rw [(advance_processors r).2, OrderedMap.get?_set] at hp
    split at hp
    · next hi =>
      cases hp
      subst hi
      obtain ⟨hplace, hnone⟩ := hcalls root hroot
      rw [← hplace]
      by_cases hroot' : moved = some root
      · -- the call is suspended, so nothing was reported of it
        have hkept : Moves none s (s.advance env i sub r) := by
          refine .advance fun o ho j hj => ?_
          cases hroot'.symm.trans (hout o ho j hj)
          exact absurd hj (hnone hroot' o ho)
        exact hkept.others root (by simp)
      · exact (Moves.advance hout).others root hroot'
    · next hi =>
      have hplace := h.called i p hp root hroot
      rw [(Moves.advance hout).others root fun heq => hi (hmoved root i heq hplace), hplace]

/-- The step of a processor takes on a call that is awaited, or none. -/
theorem Running.processor (h : Running s) (hsub : s.subscriptions.get? id = some sub)
    {p : SequentialProcessor.State α} (hp : s.processors.get? id = some p)
    {event : SequentialProcessor.Event α}
    {r : SequentialProcessor.State α × List (SequentialProcessor.Output α)}
    (hanswers : (∃ root, event.root? = some root ∧ root ∈ p.calls ∧
        SequentialProcessor.Answers root p r) ∨
      (event.root? = none ∧ r.1.calls = p.calls ∧ ∀ o ∈ r.2, o.root? = none)) :
    Moves event.root? s (s.advance env id sub r) ∧ Running (s.advance env id sub r) := by
  obtain ⟨sub', hsub', hsequential⟩ := h.sequential id p hp
  cases hsub.symm.trans hsub'
  rcases hanswers with ⟨root, hroot, hmem, hanswers⟩ | ⟨hroot, hcalls, hnone⟩
  · have hout : ∀ o ∈ r.2, ∀ j, o.root? = some j → some root = some j := by
      intro o ho j hj
      rw [(hanswers.handled o ho j hj).1]
    rw [hroot]
    refine ⟨.advance hout, h.advance hsub hsequential hout ?_ ?_⟩
    · intro tag i heq hplace
      cases heq
      cases hplace.symm.trans (h.called id p hp _ hmem)
      rfl
    · intro j hj
      refine ⟨?_, fun heq o ho hroot' => ?_⟩
      · rcases hanswers.calls j hj with rfl | hj
        · exact h.called id p hp _ hmem
        · exact h.called id p hp j hj
      · cases heq
        exact (hanswers.handled o ho _ hroot').2 hj
  · have hout : ∀ o ∈ r.2, ∀ j, o.root? = some j → none = some j := by
      intro o ho j hj
      cases (hnone o ho).symm.trans hj
    rw [hroot]
    refine ⟨.advance hout, h.advance hsub hsequential hout nofun fun j hj => ⟨?_, nofun⟩⟩
    exact h.called id p hp j (hcalls ▸ hj)

variable [DecidableEq α]

theorem Running.processMessage (h : Running s) (htag : d.message.tag = tag)
    (hd : s.lookup tag = some (d, sub)) (hstage : d.stage = .decoding) :
    Moves (some tag) s (s.processMessage env d sub) ∧ Running (s.processMessage env d sub) := by
  obtain ⟨hget, hsub⟩ := lookup_eq_some.mp hd
  subst htag
  have hplace := place?_of_get? hget
  rw [hstage] at hplace
  have hset : Moves (some d.message.tag) s (s.setStage d.message.tag .handling) := .setStage _
  have hrunning : Running (s.setStage d.message.tag .handling) := by
    refine h.of_moves hset (setStage_processors _).1 (setStage_processors _).2 ?_
    intro tag id sub heq hplace'
    cases heq
    cases hplace.symm.trans hplace'
  have hplaced : (s.setStage d.message.tag .handling).place? d.message.tag =
      some (d.subscription, .handling) := by
    rw [State.setStage, hget]
    exact (place?_set _).trans (if_pos rfl)
  unfold State.processMessage
  dsimp only
  split
  · next staleTimeout p hsequential hp =>
    have hfresh : d.message.tag ∉ p.calls := by
      intro hmem
      rw [(setStage_processors _).2] at hp
      cases hplace.symm.trans (h.called _ p hp _ hmem)
    have hanswers := SequentialProcessor.deliver_answers
      (h := hooks env sub (.handle d.message)) hfresh
    have hout : ∀ o ∈ (SequentialProcessor.deliver (hooks env sub (.handle d.message)) p
        d.message).2, ∀ root, o.root? = some root → some d.message.tag = some root := by
      intro o ho root hroot
      rw [(hanswers.handled o ho root hroot).1]
    refine ⟨hset.trans (.advance hout), ?_⟩
    have hsub' : (s.setStage d.message.tag .handling).subscriptions.get? d.subscription =
        some sub := by
      rw [(setStage_processors _).1]
      exact hsub
    refine hrunning.advance hsub' (by rw [hsequential]; rfl) hout ?_ ?_
    · intro tag i heq hplace'
      cases heq
      cases hplaced.symm.trans hplace'
      rfl
    · intro root hroot
      refine ⟨?_, fun heq o ho hroot' => ?_⟩
      · rcases hanswers.calls root hroot with rfl | hroot
        · exact hplaced
        · exact hrunning.called _ p hp root hroot
      · cases heq
        exact (hanswers.handled o ho _ hroot').2 hroot
  · exact ⟨hset, hrunning⟩

variable [ToString α]

/-- A step takes on the callback of one delivery at most, which had not returned. -/
theorem Steps.moves {event : Event α} (H : Steps env s event s') (h : Running s)
    (htags : ∀ tag d, s.deliveries.get? tag = some d → d.message.tag = tag)
    (hdeliver : ∀ id message, event ≠ .deliver id message) :
    Moves event.delivery? s s' ∧ ∀ tag, event.delivery? = some tag →
      ∃ id stage, s.place? tag = some (id, stage) ∧ stage.inside := by
  have hinside : ∀ {tag d sub stage}, s.lookup tag = some (d, sub) → d.stage = stage →
      stage.inside → ∀ t, some tag = some t → ∃ id stage, s.place? t = some (id, stage) ∧
        stage.inside := by
    intro tag d sub stage hd hstage hinside t ht
    cases ht
    exact ⟨_, _, place?_of_get? (lookup_eq_some.mp hd).1, hstage ▸ hinside⟩
  cases H with
  | subscribe => exact ⟨.of_eq rfl, nofun⟩
  | deliver => exact absurd rfl (hdeliver _ _)
  | decoded hd hstage =>
    have htag := htags _ _ (lookup_eq_some.mp hd).1
    exact ⟨(h.processMessage htag hd hstage).1, hinside hd hstage rfl⟩
  | undecodable hd hstage =>
    exact ⟨.finish_setStage _, hinside hd hstage rfl⟩
  | @callbackResolved tag d sub hd hstage =>
    have htag := htags _ _ (lookup_eq_some.mp hd).1
    subst htag
    exact ⟨.complete _ _, hinside hd hstage rfl⟩
  | callbackRejected hd hstage =>
    exact ⟨.finish_setStage _, hinside hd hstage rfl⟩
  | caught hd hstage =>
    exact ⟨(Moves.catchError ..).trans (.setStage _), hinside hd hstage rfl⟩
  | @processor id sub p staleTimeout event r hsub hp _ hlater hs =>
    have hanswers := (SequentialProcessor.step_cases hs).answers hlater
    refine ⟨?_, fun tag htag => ?_⟩
    · have hadvance : Moves _ s (s.advance env id sub r) := (h.processor hsub hp hanswers).1
      cases throwing p event with
      | none => exact hadvance
      | some tag => exact hadvance.trans (.of_eq rfl)
    · rcases hanswers with ⟨root, hroot, hmem, _⟩ | ⟨hroot, _⟩
      · cases hroot.symm.trans htag
        exact ⟨_, _, h.called id p hp _ hmem, rfl⟩
      · cases hroot.symm.trans htag
  | ackMessage =>
    refine ⟨?_, nofun⟩
    unfold State.ackMessage
    split
    · exact .of_eq rfl
    · exact .settle ..
  | nackMessage =>
    refine ⟨?_, nofun⟩
    unfold State.nackMessage
    split
    · exact .of_eq rfl
    · exact .settle ..

theorem Steps.running {event : Event α} (H : Steps env s event s') (h : Running s)
    (htags : ∀ tag d, s.deliveries.get? tag = some d → d.message.tag = tag) : Running s' := by
  -- where no processor awaits the callback that the step takes on
  have hfree : ∀ {tag d sub stage}, s.lookup tag = some (d, sub) → d.stage = stage →
      (stage = .handling → sub.sequential = none) → ∀ t i sub', some tag = some t →
        s.place? t = some (i, .handling) → s.subscriptions.get? i = some sub' →
          sub'.sequential = none := by
    intro tag d sub stage hd hstage hplain t i sub' ht hplace hsub'
    cases ht
    obtain ⟨hget, hsub⟩ := lookup_eq_some.mp hd
    obtain ⟨rfl, heq⟩ := Prod.mk.inj (Option.some.inj (hplace.symm.trans (place?_of_get? hget)))
    cases hsub.symm.trans hsub'
    exact hplain (hstage.symm.trans heq.symm)
  cases H with
  | @subscribe id sub hfresh =>
    have hold : ∀ {i p}, s.processors.get? i = some p → i ≠ id := by
      rintro i p hp rfl
      obtain ⟨sub', hsub', _⟩ := h.sequential i p hp
      exact hfresh (OrderedMap.mem_of_get? hsub')
    refine ⟨fun i p hp => ?_, fun i p hp root hroot => ?_⟩
    · dsimp only at hp ⊢
      rw [OrderedMap.get?_set]
      split
      · next hi =>
        refine ⟨sub, rfl, ?_⟩
        split at hp
        · next hsequential => exact hsequential
        · exact absurd hi (hold hp)
      · next hi =>
        split at hp
        · rw [OrderedMap.get?_set, if_neg hi] at hp
          exact h.sequential i p hp
        · exact h.sequential i p hp
    · dsimp only at hp
      split at hp
      · rw [OrderedMap.get?_set] at hp
        split at hp
        · cases hp
          exact absurd hroot (OrderedMap.not_mem_empty _)
        · exact h.called i p hp root hroot
      · exact h.called i p hp root hroot
  | deliver hsub hfresh =>
    refine ⟨h.sequential, fun i p hp root hroot => ?_⟩
    have hplace := h.called i p hp root hroot
    rw [place?_set, if_neg, hplace]
    rintro rfl
    rw [State.place?, OrderedMap.not_mem_iff.mp hfresh] at hplace
    cases hplace
  | decoded hd hstage =>
    exact (h.processMessage (htags _ _ (lookup_eq_some.mp hd).1) hd hstage).2
  | undecodable hd hstage =>
    exact h.of_moves (.finish_setStage _) (setStage_processors _).1 (setStage_processors _).2
      (hfree hd hstage (by simp))
  | @callbackResolved tag d sub hd hstage hplain =>
    have htag := htags _ _ (lookup_eq_some.mp hd).1
    subst htag
    have hframe : (s.complete env d sub).subscriptions = s.subscriptions ∧
        (s.complete env d sub).processors = s.processors := by
      obtain ⟨hsubs, hprocessors⟩ := settleAck_processors (s := s) env sub d.message.tag .ack
      unfold State.complete
      dsimp only
      split
      · exact ⟨(setStage_processors _).1.trans hsubs, (setStage_processors _).2.trans hprocessors⟩
      · exact ⟨(setStage_processors _).1.trans hsubs, (setStage_processors _).2.trans hprocessors⟩
    exact h.of_moves (.complete _ _) hframe.1 hframe.2 (hfree hd hstage fun _ => hplain)
  | callbackRejected hd hstage hplain =>
    exact h.of_moves (.finish_setStage _) (setStage_processors _).1 (setStage_processors _).2
      (hfree hd hstage fun _ => hplain)
  | @caught tag d sub _ error hd hstage =>
    have hframe : (s.catchError env sub d.message error).subscriptions = s.subscriptions ∧
        (s.catchError env sub d.message error).processors = s.processors := by
      unfold State.catchError
      split
      · exact ⟨rfl, rfl⟩
      · split
        · exact ⟨rfl, rfl⟩
        · exact settleAck_processors ..
    exact h.of_moves ((Moves.catchError ..).trans (.setStage _))
      ((setStage_processors _).1.trans hframe.1) ((setStage_processors _).2.trans hframe.2)
      (hfree hd hstage (by simp))
  | @processor id sub p staleTimeout event r hsub hp _ hlater hs =>
    have hadvance : Running (s.advance env id sub r) :=
      (h.processor hsub hp ((SequentialProcessor.step_cases hs).answers hlater)).2
    cases throwing p event with
    | none => exact hadvance
    | some tag => exact ⟨hadvance.sequential, hadvance.called⟩
  | ackMessage =>
    unfold State.ackMessage
    split
    · exact h
    · exact h.of_moves (.settle .. : Moves none s _) (settle_processors ..).1
        (settle_processors ..).2 (by simp)
  | nackMessage =>
    unfold State.nackMessage
    split
    · exact h
    · exact h.of_moves (.settle .. : Moves none s _) (settle_processors ..).1
        (settle_processors ..).2 (by simp)

/-- Only a setup adds a subscription. -/
theorem Steps.subscriptions {event : Event α} (H : Steps env s event s')
    (hsubscribe : ∀ id sub, event ≠ .subscribe id sub) : s'.subscriptions = s.subscriptions := by
  cases H with
  | subscribe => exact absurd rfl (hsubscribe _ _)
  | deliver => rfl
  | @decoded tag d sub =>
    unfold State.processMessage
    dsimp only
    split
    · exact (advance_processors _).1.trans (setStage_processors _).1
    · exact (setStage_processors _).1
  | undecodable | callbackRejected => exact (setStage_processors _).1
  | callbackResolved =>
    unfold State.complete
    dsimp only
    split <;> exact (setStage_processors _).1.trans (settleAck_processors ..).1
  | caught =>
    refine (setStage_processors _).1.trans ?_
    unfold State.catchError
    split
    · rfl
    · split
      · rfl
      · exact (settleAck_processors ..).1
  | @processor id sub p staleTimeout event r =>
    have hadvance : (s.advance env id sub r).subscriptions = _ := (advance_processors r).1
    cases throwing p event <;> exact hadvance
  | ackMessage =>
    unfold State.ackMessage
    split
    · rfl
    · exact (settle_processors ..).1
  | nackMessage =>
    unfold State.nackMessage
    split
    · rfl
    · exact (settle_processors ..).1

theorem running {ok : State α → Env α × Event α → Prop} (hr : Reach step ok start s) : Running s :=
  hr.invariant_of accounted running_start fun haccounted _ h _ hs =>
    (step_cases hs).running h fun tag d hd => (haccounted.attributed.delivery tag d hd).1

theorem subscribe_step (hfresh : id ∉ s.subscriptions) :
    step s (env, .subscribe id sub) = some { s with
      subscriptions := s.subscriptions.set id sub
      processors := if sub.sequential.isSome then s.processors.set id SequentialProcessor.start
        else s.processors } :=
  if_neg hfresh

end ConsumePipeline

end RabbitMQ
