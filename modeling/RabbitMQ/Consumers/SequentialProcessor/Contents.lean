import RabbitMQ.Consumers.SequentialProcessor

/-! What a processor keeps and reports comes from what it was given.

`Meets P R` says that `P` holds of every message that a state keeps, and `R` of every delivery whose
`handle` is on its way. No step reaches outside of that, whatever the hooks do. Of an output it says
also that the policy decided every failure, and that `U` holds of what a sweep dropped undecided. -/

namespace RabbitMQ
namespace SequentialProcessor

variable {α : Type}

def Output.Meets (P : Message α → Prop) (R : Nat → Prop) (U : Message α → Prop) (h : Hooks α) :
    Output α → Prop
  | .callback message | .onSuccess message _ => P message
  | .undecided message => P message ∧ U message
  | .onFailure message error requeue _ => P message ∧ h.shouldRequeue message error = .ok requeue
  | .handled root _ => R root
  | .removed _ _ | .visited _ _ _ | .sweepFailed _ => True

variable [DecidableEq α] {P Q U : Message α → Prop} {R S : Nat → Prop} {c : Config} {h : Hooks α}
  {s : State α} {message : Message α} {root : Nat} {stack rest : List (Frame α)} {frame : Frame α}
  {out : List (Output α)}

structure State.Meets (P : Message α → Prop) (R : Nat → Prop) (s : State α) : Prop where
  parked : ∀ id data, s.pending.get? id = some data → P data.message
  root : ∀ root stack, s.calls.get? root = some stack → R root
  frame : ∀ root stack, s.calls.get? root = some stack → ∀ frame ∈ stack, P frame.message

/-- What a method yields meets `P` and `R`. -/
def Yields (P : Message α → Prop) (R : Nat → Prop) (U : Message α → Prop) (h : Hooks α)
    (r : State α × List (Output α)) : Prop :=
  r.1.Meets P R ∧ ∀ o ∈ r.2, o.Meets P R U h

theorem State.meets_start : (start : State α).Meets P R where
  parked _ _ h := nomatch h
  root _ _ h := nomatch h
  frame _ _ h := nomatch h

theorem State.Meets.mono (hs : s.Meets P R) (hPQ : ∀ message, P message → Q message)
    (hRS : ∀ root, R root → S root) : s.Meets Q S where
  parked id data hdata := hPQ _ (hs.parked id data hdata)
  root root stack hstack := hRS _ (hs.root root stack hstack)
  frame root stack hstack frame hframe := hPQ _ (hs.frame root stack hstack frame hframe)

/-- Only `pending` and `calls` matter. -/
theorem State.Meets.congr {t : State α} (hs : s.Meets P R) (hpending : t.pending = s.pending)
    (hcalls : t.calls = s.calls) : t.Meets P R where
  parked := hpending ▸ hs.parked
  root := hcalls ▸ hs.root
  frame := hcalls ▸ hs.frame

theorem State.Meets.set_calls (hs : s.Meets P R) (hroot : R root)
    (hstack : ∀ frame ∈ stack, P frame.message) :
    State.Meets P R { s with calls := s.calls.set root stack } where
  parked := hs.parked
  root := by
    intro root' stack' hget
    rw [OrderedMap.get?_set] at hget
    split at hget
    · next heq => exact heq ▸ hroot
    · exact hs.root root' stack' hget
  frame := by
    intro root' stack' hget
    rw [OrderedMap.get?_set] at hget
    split at hget
    · cases hget
      exact hstack
    · exact hs.frame root' stack' hget

theorem State.Meets.erase_calls (hs : s.Meets P R) :
    State.Meets P R { s with calls := s.calls.erase root } where
  parked := hs.parked
  root := by
    intro root' stack' hget
    rw [OrderedMap.get?_erase] at hget
    split at hget
    · cases hget
    · exact hs.root root' stack' hget
  frame := by
    intro root' stack' hget
    rw [OrderedMap.get?_erase] at hget
    split at hget
    · cases hget
    · exact hs.frame root' stack' hget

theorem State.Meets.erase_pending (hs : s.Meets P R) (id : α) :
    State.Meets P R { s with pending := s.pending.erase id } where
  parked := by
    intro id' data hget
    rw [OrderedMap.get?_erase] at hget
    split at hget
    · cases hget
    · exact hs.parked id' data hget
  root := hs.root
  frame := hs.frame

theorem Yields.nothing (hs : s.Meets P R) : Yields P R U h (s, []) :=
  ⟨hs, List.forall_mem_nil _⟩

theorem Yields.append {r : State α × List (Output α)} (hr : Yields P R U h r)
    (hout : ∀ o ∈ out, o.Meets P R U h) : Yields P R U h (r.1, out ++ r.2) := by
  refine ⟨hr.1, fun o ho => ?_⟩
  rcases List.mem_append.mp ho with ho | ho
  · exact hout o ho
  · exact hr.2 o ho

theorem State.Meets.removeProcessing (hs : s.Meets P R) (messageId : Option α) (cause : Cause) :
    Yields P R U h (s.removeProcessing messageId cause) := by
  cases messageId with
  | none => exact .nothing hs
  | some id =>
    refine ⟨hs.congr rfl rfl, fun o ho => ?_⟩
    simp only [State.removeProcessing] at ho
    split at ho
    · cases List.mem_singleton.mp ho
      trivial
    · cases ho

theorem handle_meets (hs : s.Meets P R) (hm : P message) :
    Yields P R U h ((handle h s message).1, (handle h s message).2.1) ∧
      ∀ frame, (handle h s message).2.2 = .running frame → P frame.message := by
  generalize hr : handle h s message = r
  have H := handle_cases h s message
  rw [hr] at H
  cases H with
  | duplicate hid hp =>
    refine ⟨⟨hs, fun o ho => ?_⟩, fun frame hf => ?_⟩
    · cases List.mem_singleton.mp ho
      exact hm
    · cases hret : h.onSuccess message <;> simp [hret, Progress.returned] at hf
  | parks hid hd hp =>
    refine ⟨.nothing ⟨fun id data hget => ?_, hs.root, hs.frame⟩, fun frame hf => by cases hf⟩
    simp only [State.park, State.indexPending, OrderedMap.get?_set] at hget
    split at hget
    · cases hget
      exact hm
    · exact hs.parked id data hget
  | runs hfree =>
    refine ⟨⟨hs.congr rfl rfl, fun o ho => ?_⟩, fun frame hf => ?_⟩
    · cases List.mem_singleton.mp ho
      exact hm
    · cases hf
      exact hm

theorem processCatch_meets (hs : s.Meets P R) (hf : P frame.message) (error : Value) :
    Yields P R U h ((processCatch c h s frame error).1, (processCatch c h s frame error).2.1) := by
  obtain ⟨hs', hout⟩ := hs.removeProcessing (h := h) frame.message.messageId .failure
  simp only [processCatch]
  split
  · exact ⟨hs', hout⟩
  · next requeue hrequeue =>
    split
    · exact ⟨hs', hout⟩
    · refine ⟨hs', fun o ho => ?_⟩
      rcases List.mem_append.mp ho with ho | ho
      · exact hout o ho
      · cases List.mem_singleton.mp ho
        exact ⟨hf, hrequeue⟩

/-- By induction on the stack: a rejection unwinds it frame by frame. -/
theorem settle_meets (hs : s.Meets P R) (hroot : R root) (result : Except Value Unit)
    (hstack : ∀ frame ∈ stack, P frame.message) :
    Yields P R U h (settle c h root s result stack) := by
  induction stack generalizing s result with
  | nil =>
    refine ⟨hs.erase_calls, fun o ho => ?_⟩
    cases List.mem_singleton.mp ho
    exact hroot
  | cons frame rest ih =>
    cases result with
    | ok u => exact .nothing (hs.set_calls hroot hstack)
    | error e =>
      obtain ⟨hs', hout⟩ :=
        processCatch_meets (c := c) (h := h) hs (hstack frame List.mem_cons_self) e
      have hrest := ih hs' (processCatch c h s frame e).2.2 fun f hf =>
        hstack f (List.mem_cons_of_mem _ hf)
      exact hrest.append hout

theorem callbackResolved_meets (hs : s.Meets P R) (hroot : R root)
    (hstack : ∀ f ∈ frame :: rest, P f.message) :
    Yields P R U h (callbackResolved c h s root frame rest) := by
  have hframe := hstack frame List.mem_cons_self
  obtain ⟨hs', hremoved⟩ := hs.removeProcessing (h := h) frame.message.messageId .success
  have hframes := takeDependents_frame (s.removeProcessing frame.message.messageId .success).1
    frame.message.messageId
  have hout : ∀ o ∈ (s.removeProcessing frame.message.messageId .success).2 ++
      [.onSuccess frame.message (.ran ((s.removeProcessing frame.message.messageId .success).1.now -
        frame.startTime))], o.Meets P R U h := by
    intro o ho
    rcases List.mem_append.mp ho with ho | ho
    · exact hremoved o ho
    · cases List.mem_singleton.mp ho
      exact hframe
  simp only [callbackResolved]
  split
  · exact (settle_meets hs' hroot _ hstack).append hout
  · refine ⟨State.Meets.set_calls (hs'.congr ?_ ?_) hroot fun f hf => ?_, hout⟩
    · exact (congrArg State.pending hframes :)
    · exact (congrArg State.calls hframes :)
    · rcases List.mem_cons.mp hf with rfl | hf
      · exact hframe
      · exact hstack f (List.mem_cons_of_mem _ hf)

theorem processDependent_meets (hs : s.Meets P R) (hroot : R root)
    (hstack : ∀ f ∈ frame :: rest, P f.message) (pendingId : α) (remaining : List α) :
    Yields P R U h (processDependent c h s root frame pendingId remaining rest) := by
  have hstack' : ∀ f ∈ { frame with stage := .dependents remaining } :: rest, P f.message := by
    intro f hf
    rcases List.mem_cons.mp hf with rfl | hf
    · exact hstack frame List.mem_cons_self
    · exact hstack f (List.mem_cons_of_mem _ hf)
  simp only [processDependent]
  split
  · refine ⟨hs.set_calls hroot hstack', fun o ho => ?_⟩
    cases List.mem_singleton.mp ho
    trivial
  · next pendingData hget =>
    obtain ⟨⟨hs', hout⟩, hchild⟩ := handle_meets (h := h) (hs.erase_pending pendingId)
      (hs.parked pendingId pendingData hget)
    generalize handle h { s with pending := s.pending.erase pendingId } pendingData.message = r
      at hs' hout hchild ⊢
    obtain ⟨s₁, out, progress⟩ := r
    have hmarks : ∀ o ∈ Output.visited root rest.length pendingId ::
        Output.removed pendingId .released :: out, o.Meets P R U h := by
      intro o ho
      rcases List.mem_cons.mp ho with rfl | ho
      · trivial
      · rcases List.mem_cons.mp ho with rfl | ho
        · trivial
        · exact hout o ho
    cases progress with
    | resolved => exact (settle_meets hs' hroot (.ok ()) hstack').append hmarks
    | rejected e => exact (settle_meets hs' hroot (.error e) hstack').append hmarks
    | running child =>
      have hstack₁ : Yields P R U h ({ s₁ with
          calls := s₁.calls.set root
            (child :: { frame with stage := .dependents remaining } :: rest) }, []) := by
        refine .nothing (hs'.set_calls hroot fun f hf => ?_)
        rcases List.mem_cons.mp hf with rfl | hf
        · exact hchild f rfl
        · exact hstack' f hf
      exact hstack₁.append hmarks

/-- By induction on the entries: an expiry is decided like the failure of a handler. -/
theorem sweepPending_meets [ToString α] (hs : s.Meets P R) (entries : List (α × Parked α))
    (hentries : ∀ e ∈ entries, P e.2.message)
    (hundecided : ∀ e ∈ entries, c.staleTimeout < s.now - e.2.queuedAt →
      (∃ error, h.shouldRequeue e.2.message e.2.expiry = .error error) → U e.2.message) :
    Yields P R U h (sweepPending c h entries s) := by
  induction entries generalizing s with
  | nil => exact .nothing hs
  | cons e entries ih =>
    obtain ⟨messageId, data⟩ := e
    have hdata := hentries _ List.mem_cons_self
    have hrest := fun e he => hentries e (List.mem_cons_of_mem _ he)
    have hrest' := fun e he => hundecided e (List.mem_cons_of_mem _ he)
    have hs' : (s.removePending messageId data.dependsOn).Meets P R := by
      rw [removePending_frame]
      exact (hs.erase_pending messageId).congr rfl rfl
    have hnow : (s.removePending messageId data.dependsOn).now = s.now := by
      rw [removePending_frame]
    simp only [sweepPending]
    split
    · next hstale =>
      split
      · next error herror =>
        have hthrows := hundecided _ List.mem_cons_self hstale ⟨error, herror⟩
        exact ⟨hs', by simpa [Output.Meets] using ⟨hdata, hthrows⟩⟩
      · next requeue hrequeue =>
        split
        · exact ⟨hs', by simpa [Output.Meets] using ⟨hdata, hrequeue⟩⟩
        · exact (ih hs' hrest (hnow ▸ hrest')).append
            (by simpa [Output.Meets] using ⟨hdata, hrequeue⟩)
    · exact ih hs hrest hrest'

theorem cleanup_meets [ToString α] (hs : s.Meets P R)
    (hundecided : ∀ id data, s.pending.get? id = some data →
      c.staleTimeout < s.now - data.queuedAt →
        (∃ error, h.shouldRequeue data.message data.expiry = .error error) → U data.message) :
    Yields P R U h (cleanup c h s) := by
  have hs' : (sweepProcessing c s).1.Meets P R := hs.congr rfl rfl
  have hout : ∀ o ∈ (sweepProcessing c s).2, o.Meets P R U h := by
    intro o ho
    obtain ⟨id, _, rfl⟩ := List.mem_map.mp ho
    trivial
  have hget : ∀ e ∈ s.pending.entries, s.pending.get? e.1 = some e.2 :=
    fun e he => OrderedMap.get?_eq_some_iff.mpr he
  exact (sweepPending_meets (c := c) (h := h) hs' s.pending.entries
    (fun e he => hs.parked e.1 e.2 (hget e he))
    fun e he => hundecided e.1 e.2 (hget e he)).append hout

theorem deliver_meets (hs : s.Meets P R) (hm : P message) (hroot : R message.tag) :
    Yields P R U h (deliver h s message) := by
  have hs' : State.Meets P R { s with handled := message.tag :: s.handled } := hs.congr rfl rfl
  obtain ⟨⟨hs₁, hout⟩, hframe⟩ := handle_meets (h := h) hs' hm
  have hend : ∀ {result : Except Value Unit}, ∀ o ∈
      (handle h { s with handled := message.tag :: s.handled } message).2.1 ++
        [.handled message.tag result], o.Meets P R U h := by
    intro result o ho
    rcases List.mem_append.mp ho with ho | ho
    · exact hout o ho
    · cases List.mem_singleton.mp ho
      exact hroot
  simp only [deliver]
  split
  · exact ⟨hs₁, hend⟩
  · exact ⟨hs₁, hend⟩
  · next frame hrun =>
    refine ⟨hs₁.set_calls hroot fun f hf => ?_, hout⟩
    cases List.mem_singleton.mp hf
    exact hframe frame hrun

/-- No step mentions a message that the state did not keep and that was not just handed over, and
only a sweep drops one undecided. -/
theorem Steps.meets [ToString α] {event : Event α} {r : State α × List (Output α)}
    (H : Steps c h s event r) (hs : s.Meets P R)
    (hm : ∀ message, event = .handle message → P message ∧ R message.tag)
    (hundecided : event = .cleanup → ∀ id data, s.pending.get? id = some data →
      c.staleTimeout < s.now - data.queuedAt →
        (∃ error, h.shouldRequeue data.message data.expiry = .error error) → U data.message) :
    Yields P R U h r := by
  cases H with
  | handle hfresh => exact deliver_meets hs (hm _ rfl).1 (hm _ rfl).2
  | callbackResolved hcall =>
    exact callbackResolved_meets hs (hs.root _ _ hcall) (hs.frame _ _ hcall)
  | callbackRejected hcall =>
    exact settle_meets hs (hs.root _ _ hcall) _ (hs.frame _ _ hcall)
  | loopEnds hcall =>
    exact settle_meets hs (hs.root _ _ hcall) _ fun f hf =>
      hs.frame _ _ hcall f (List.mem_cons_of_mem _ hf)
  | loopTurns hcall =>
    exact processDependent_meets hs (hs.root _ _ hcall) (hs.frame _ _ hcall) _ _
  | cleanup hlive => exact cleanup_meets hs (hundecided rfl)
  | dispose => exact .nothing ⟨fun _ _ h => (nomatch h), hs.root, hs.frame⟩
  | tick => exact .nothing (hs.congr rfl rfl)

/-! ## Decisions

Every failure that a processor reports is decided by the retry policy, on the message that failed.
`Holds P` says that `P` holds of every message that a state keeps. -/

/-- The messages of an output meet `P`, and a failure carries the decision of the policy. -/
def Output.Decided (P : Message α → Prop) (h : Hooks α) : Output α → Prop
  | .callback message | .onSuccess message _ | .undecided message => P message
  | .onFailure message error requeue _ => P message ∧ h.shouldRequeue message error = .ok requeue
  | .handled _ _ | .removed _ _ | .visited _ _ _ | .sweepFailed _ => True

structure State.Holds (P : Message α → Prop) (s : State α) : Prop where
  parked : ∀ id data, s.pending.get? id = some data → P data.message
  frame : ∀ root stack, s.calls.get? root = some stack → ∀ frame ∈ stack, P frame.message

/-- A result of a method holds messages that meet `P`, and decides every failure. -/
def Decides (P : Message α → Prop) (h : Hooks α) (r : State α × List (Output α)) : Prop :=
  r.1.Holds P ∧ ∀ o ∈ r.2, o.Decided P h

theorem State.holds_iff : s.Holds P ↔ s.Meets P fun _ => True :=
  ⟨fun hs => ⟨hs.parked, fun _ _ _ => trivial, hs.frame⟩, fun hs => ⟨hs.parked, hs.frame⟩⟩

theorem State.holds_start : (start : State α).Holds P := State.holds_iff.mpr State.meets_start

theorem State.Holds.mono (hs : s.Holds P) (hPQ : ∀ message, P message → Q message) : s.Holds Q :=
  State.holds_iff.mpr ((State.holds_iff.mp hs).mono hPQ fun _ h => h)

theorem Decides.of_yields {r : State α × List (Output α)} (hr : Yields P (fun _ => True) (fun _ => True) h r) :
    Decides P h r := by
  refine ⟨State.holds_iff.mpr hr.1, fun o ho => ?_⟩
  have hmeets := hr.2 o ho
  cases o with
  | undecided => exact hmeets.1
  | _ => exact hmeets

theorem deliver_decides (hs : s.Holds P) (hm : P message) : Decides P h (deliver h s message) :=
  .of_yields (deliver_meets (State.holds_iff.mp hs) hm trivial)

theorem Steps.decides [ToString α] {event : Event α} {r : State α × List (Output α)}
    (H : Steps c h s event r) (hs : s.Holds P)
    (hm : ∀ message, event = .handle message → P message) : Decides P h r :=
  .of_yields (H.meets (State.holds_iff.mp hs) (fun message heq => ⟨hm message heq, trivial⟩)
    fun _ _ _ _ _ _ => trivial)

/-! ## Attribution

The deliveries a processor keeps or reports are the ones it was given. `Within P` says that `P`
holds of the tag of everything a state keeps: what is parked, the call stacks and their frames. -/

section

variable {P Q : Nat → Prop}

def Output.Within (P : Nat → Prop) : Output α → Prop
  | .callback message | .onSuccess message _ | .onFailure message _ _ _ | .undecided message =>
    P message.tag
  | .handled root _ => P root
  | .removed _ _ | .visited _ _ _ | .sweepFailed _ => True

omit [DecidableEq α] in
theorem Output.Within.mono {P Q : Nat → Prop} (hPQ : ∀ tag, P tag → Q tag) {o : Output α}
    (ho : o.Within P) : o.Within Q := by
  cases o with
  | callback | onSuccess | onFailure | undecided | handled => exact hPQ _ ho
  | removed | visited | sweepFailed => trivial

structure State.Within (P : Nat → Prop) (s : State α) : Prop where
  parked : ∀ id data, s.pending.get? id = some data → P data.message.tag
  root : ∀ root stack, s.calls.get? root = some stack → P root
  frame : ∀ root stack, s.calls.get? root = some stack → ∀ frame ∈ stack, P frame.message.tag

/-- A result of a method keeps within `P`. -/
def Keeps (P : Nat → Prop) (r : State α × List (Output α)) : Prop :=
  r.1.Within P ∧ ∀ o ∈ r.2, o.Within P

theorem State.within_iff : s.Within P ↔ s.Meets (fun message => P message.tag) P :=
  ⟨fun hs => ⟨hs.parked, hs.root, hs.frame⟩, fun hs => ⟨hs.parked, hs.root, hs.frame⟩⟩

theorem State.within_start : (start : State α).Within P := State.within_iff.mpr State.meets_start

theorem State.Within.mono (hs : s.Within P) (hPQ : ∀ tag, P tag → Q tag) : s.Within Q :=
  State.within_iff.mpr ((State.within_iff.mp hs).mono (fun message => hPQ message.tag) hPQ)

theorem Keeps.of_yields {r : State α × List (Output α)}
    (hr : Yields (fun message => P message.tag) P (fun _ => True) h r) : Keeps P r := by
  refine ⟨State.within_iff.mpr hr.1, fun o ho => ?_⟩
  have hmeets := hr.2 o ho
  cases o with
  | onFailure | undecided => exact hmeets.1
  | _ => exact hmeets

theorem deliver_within (hs : s.Within P) (hm : P message.tag) : Keeps P (deliver h s message) :=
  .of_yields (deliver_meets (State.within_iff.mp hs) hm hm)

/-- No step mentions a delivery that the state did not keep and that was not just handed over. -/
theorem Steps.within [ToString α] {event : Event α} {r : State α × List (Output α)}
    (H : Steps c h s event r) (hs : s.Within P)
    (hm : ∀ message, event = .handle message → P message.tag) : Keeps P r :=
  .of_yields (H.meets (State.within_iff.mp hs) (fun message heq => ⟨hm message heq, hm message heq⟩)
    fun _ _ _ _ _ _ => trivial)

end

/-! ## What a sweep drops undecided -/

/-- The sweep comes to the delivery, and the policy cannot be asked about it. -/
def State.Undecided [ToString α] (c : Config) (h : Hooks α) (s : State α) (message : Message α) :
    Prop :=
  ∃ id data, s.pending.get? id = some data ∧ data.message = message ∧
    c.staleTimeout < s.now - data.queuedAt ∧
    ∃ error, h.shouldRequeue message data.expiry = .error error

theorem Steps.undecided [ToString α] {event : Event α} {r : State α × List (Output α)}
    (H : Steps c h s event r) (hlater : ∀ message, event ≠ .handle message)
    (ho : .undecided message ∈ r.2) : event = .cleanup ∧ s.Undecided c h message := by
  have hs : s.Meets (fun _ => True) fun _ => True :=
    ⟨fun _ _ _ => trivial, fun _ _ _ => trivial, fun _ _ _ _ _ => trivial⟩
  have hyields : Yields (fun _ => True) (fun _ => True)
      (fun message => event = .cleanup ∧ s.Undecided c h message) h r :=
    H.meets hs (fun message heq => absurd heq (hlater message)) fun hcleanup id data hget hstale
      herror => ⟨hcleanup, id, data, hget, rfl, hstale, herror⟩
  exact (hyields.2 _ ho).2

theorem deliver_undecided {m : Message α} : .undecided m ∉ (deliver h s message).2 := by
  intro ho
  have hs : s.Meets (fun _ => True) fun _ => True :=
    ⟨fun _ _ _ => trivial, fun _ _ _ => trivial, fun _ _ _ _ _ => trivial⟩
  have hyields : Yields (fun _ => True) (fun _ => True) (fun _ => False) h (deliver h s message) :=
    deliver_meets hs trivial trivial
  exact (hyields.2 _ ho).2

end SequentialProcessor
end RabbitMQ
