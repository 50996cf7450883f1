import RabbitMQ.Messaging.Topology

/-! The way to a dead letter queue. A queue that `createQueue` resolved for is declared with the
exchange and the key that its dead letter queue is bound with, and `moveToDeadLetter` publishes under
the same ones: each call once, reporting what the broker did with that very message. However often a
message goes this way, it stays what it was. -/

namespace RabbitMQ
namespace Topology

open Transition
open MessageCodec (HeaderValue isCompressed)

variable {Bytes : Type} {deadLetterExchange : String} {s s' : State Bytes} {event : Event Bytes}

/-! ## The arguments of a queue -/

theorem get?_spread {m : Table} {l : List (String × HeaderValue)} {k : String}
    (h : ∀ e ∈ l, e.1 ≠ k) : (spread m l).get? k = m.get? k := by
  induction l generalizing m with
  | nil => rfl
  | cons e l ih =>
    refine (ih fun e' he' => h e' (List.mem_cons_of_mem _ he')).trans ?_
    exact (OrderedMap.get?_set _ _ _ _).trans (if_neg (h e List.mem_cons_self).symm)

/-- The options leave the dead letter arguments alone. -/
def Options.Plain (o : Options) : Prop :=
  ∀ arguments ∈ o.arguments, ∀ e ∈ arguments.entries,
    e.1 ≠ "x-dead-letter-exchange" ∧ e.1 ≠ "x-dead-letter-routing-key"

/-- What was granted to a call are the first of its requests; all of them, when it resolved. -/
structure Declaring.Sound (x : Declaring) (granted : List Request) : Prop where
  granted : granted = x.requests.take x.granted
  opening : x.onChannel = false → x.granted = 0
  resolved : x.outcome = some (.ok ()) ↔ x.granted = x.requests.length
  within : x.granted ≤ x.requests.length

theorem Declaring.sound_begin (requests : List Request) : (Declaring.begin requests).Sound [] where
  granted := rfl
  opening _ := rfl
  resolved := by
    rw [begin]
    dsimp only
    split
    · next hnil => exact iff_of_true rfl (List.length_eq_zero_iff.mpr hnil).symm
    · next hne =>
      refine iff_of_false nofun fun hlength => hne ?_
      exact List.length_eq_zero_iff.mp hlength.symm
  within := Nat.zero_le _

theorem Declaring.Sound.granting {x : Declaring} {granted : List Request} (h : x.Sound granted)
    (hopen : x.outcome = none) : x.granting.Sound (granted ++ x.asked.toList) := by
  rw [Declaring.granting, Declaring.asked]
  cases honChannel : x.onChannel with
  | false =>
    rw [if_neg Bool.false_ne_true, if_neg Bool.false_ne_true, Option.toList_none, List.append_nil]
    exact ⟨h.granted, nofun, h.resolved, h.within⟩
  | true =>
    have hlt : x.granted < x.requests.length := by
      refine h.within.lt_of_ne fun hall => ?_
      cases hopen.symm.trans (h.resolved.mpr hall)
    rw [if_pos rfl, if_pos rfl, List.getElem?_eq_getElem hlt]
    refine ⟨?_, fun hnot => ?_, ?_, hlt⟩
    · rw [h.granted, Option.toList_some]
      exact List.take_append_getElem hlt
    · cases hnot
    · dsimp only
      split
      · next hlast => exact iff_of_true rfl hlast
      · next hnot => exact iff_of_false nofun hnot

structure Granted (s : State Bytes) : Prop where
  declaring : ∀ call x, s.declaring.get? call = some x → x.Sound (s.grantedTo call)
  known : ∀ grant ∈ s.granted, grant.1 ∈ s.declaring

theorem Granted.grantedTo_of_fresh (h : Granted s) {call : Nat} (hfresh : call ∉ s.declaring) :
    s.grantedTo call = [] := by
  refine List.filterMap_eq_nil_iff.mpr fun grant hgrant => if_neg ?_
  rintro rfl
  exact hfresh (h.known grant hgrant)

theorem Granted.same (h : Granted s) (hdeclaring : s'.declaring = s.declaring)
    (hgranted : s'.granted = s.granted) : Granted s' where
  declaring call x hx := by
    rw [State.grantedTo, hgranted]
    exact h.declaring call x (hdeclaring ▸ hx)
  known grant hgrant := hdeclaring ▸ h.known grant (hgranted ▸ hgrant)

/-- A change of one call. -/
theorem Granted.set (h : Granted s) {call : Nat} {x : Declaring} (hx : x.Sound (s.grantedTo call)) :
    Granted { s with declaring := s.declaring.set call x } where
  declaring call' x' hx' := by
    dsimp only at hx'
    rw [OrderedMap.get?_set] at hx'
    split at hx'
    · next heq =>
      cases hx'
      exact heq ▸ hx
    · exact h.declaring call' x' hx'
  known grant hgrant := OrderedMap.mem_set.mpr (.inr (h.known grant hgrant))

theorem Granted.grants (h : Granted s) {call : Nat} {x : Declaring}
    (hx : s.declaring.get? call = some x) (hopen : x.outcome = none) :
    Granted (s.grants call x) where
  declaring call' x' hx' := by
    have hgranted : (s.grants call x).grantedTo call' =
        s.grantedTo call' ++ if call = call' then x.asked.toList else [] := by
      rw [State.grantedTo, State.grants, List.filterMap_append]
      refine congrArg _ ?_
      cases x.asked with
      | none => split <;> rfl
      | some request =>
        by_cases heq : call = call' <;> simp [heq]
    rw [hgranted]
    rw [State.grants] at hx'
    dsimp only at hx'
    rw [OrderedMap.get?_set] at hx'
    split at hx'
    · next heq =>
      cases hx'
      rw [if_pos heq.symm, heq]
      exact (h.declaring call x hx).granting hopen
    · next hne =>
      rw [if_neg fun heq => hne heq.symm, List.append_nil]
      exact h.declaring call' x' hx'
  known grant hgrant := by
    refine OrderedMap.mem_set.mpr ?_
    rcases List.mem_append.mp hgrant with hgrant | hgrant
    · exact .inr (h.known grant hgrant)
    · obtain ⟨request, -, rfl⟩ := Option.map_eq_some_iff.mp (Option.mem_toList.mp hgrant)
      exact .inl rfl

theorem granted_start : Granted (start : State Bytes) where
  declaring _ _ h := nomatch h
  known _ h := nomatch h

theorem Steps.granted (hs : Steps deadLetterExchange s event s') (h : Granted s) : Granted s' := by
  cases hs with
  | declares hfresh =>
    refine h.set ?_
    rw [h.grantedTo_of_fresh hfresh]
    exact Declaring.sound_begin _
  | grants hx hopen => exact h.grants hx hopen
  | refuses hx hopen =>
    have hsound := h.declaring _ _ hx
    refine h.set ⟨hsound.granted, hsound.opening, ?_, hsound.within⟩
    refine iff_of_false nofun fun hall => ?_
    cases hopen.symm.trans (hsound.resolved.mpr hall)
  | subscribes | unsubscribes | sends | delivers | moveToDeadLetter | noChannel | publishes | channel
  | resumes => exact h.same rfl rfl

theorem granted (hr : Reach (step deadLetterExchange) anyStep (start : State Bytes) s) :
    Granted s :=
  hr.invariant granted_start fun h _ hs => (step_cases hs).granted h

/-! ## Moves -/

/-- No two publishes of a channel are watched under one token. -/
def Distinct (s : State Bytes) : Event Bytes → Prop
  | .publishes call channel time token throws => ∀ m ∈ s.moves.get? call,
      RoutablePublish.Distinct (s.channel channel)
        (.publishWatched (watched (m.headers time)) token throws)
  | .channel n event => RoutablePublish.Distinct (s.channel n) event
  | _ => True

instance (s : State Bytes) : (event : Event Bytes) → Decidable (Distinct s event)
  | .publishes call channel time token throws => inferInstanceAs (Decidable
      (∀ m ∈ s.moves.get? call, RoutablePublish.Distinct (s.channel channel)
        (.publishWatched (watched (m.headers time)) token throws)))
  | .channel n event => inferInstanceAs (Decidable (RoutablePublish.Distinct (s.channel n) event))
  | .subscribes _ _ | .unsubscribes _ | .declares _ _ | .grants _ | .refuses _ _ | .sends _
  | .delivers _ _ _ _ | .moveToDeadLetter _ _ _ | .noChannel _ _ | .resumes _ _ =>
    inferInstanceAs (Decidable True)

theorem channel_set (s : State Bytes) (n k : Nat) (channel : RoutablePublish.State String) :
    State.channel { s with channels := s.channels.set n channel } k =
      if k = n then channel else s.channel k := by
  rw [State.channel, OrderedMap.get?_set]
  split <;> rfl

theorem channel_publishes (s : State Bytes) (call : Nat) (m : Move Bytes) (n k : Nat)
    (time token : String) (throws : Bool) :
    (s.publishes deadLetterExchange call m n time token throws).channel k =
      if k = n then (s.channel n).publishWatched (watched (m.headers time)) token throws
      else s.channel k :=
  channel_set s n k _

/-- A channel runs as it does by itself. -/
theorem channel_reach (hr : Reach (step deadLetterExchange) Distinct (start : State Bytes) s)
    (n : Nat) :
    Reach RoutablePublish.step RoutablePublish.Distinct RoutablePublish.start (s.channel n) := by
  refine Reach.project (f := fun s : State Bytes => s.channel n) (fun hok hs => ?_) hr
  cases step_cases hs with
  | @publishes call k time token throws m hm =>
    rw [channel_publishes]
    split
    · next heq =>
      subst heq
      exact .inr ⟨_, hok m hm, rfl⟩
    · exact .inl rfl
  | @channel k event channel hstep =>
    rw [channel_set]
    split
    · next heq =>
      subst heq
      exact .inr ⟨event, hok, hstep⟩
    · exact .inl rfl
  | subscribes | unsubscribes | declares | grants | refuses | sends | delivers | moveToDeadLetter
  | noChannel | resumes => exact .inl rfl

/-- How far a call of `moveToDeadLetter` is, and what it has published. -/
def Move.Sound (deadLetterExchange : String) (s : State Bytes) (call : Nat) (m : Move Bytes) :
    Prop :=
  match m.sending with
  | none => s.publishedBy call = [] ∧
      ∀ outcome, m.outcome = some outcome → ∃ message, outcome = .error message
  | some sending => ∃ watch, (s.channel sending.channel).calls[sending.index]? = some watch ∧
      watch.token = sending.token ∧
      (s.publishedBy call = [⟨m.letter deadLetterExchange sending.time sending.token,
          m.message.origin, some call⟩] ∨
        s.publishedBy call = [] ∧ watch.refused = some true) ∧
      ∀ outcome, m.outcome = some outcome → ∃ result message, watch.result = some result ∧
        outcome = m.verdict deadLetterExchange message result

structure Moved (deadLetterExchange : String) (s : State Bytes) : Prop where
  moves : ∀ call m, s.moves.get? call = some m → m.Sound deadLetterExchange s call
  movers : ∀ p ∈ s.published, ∀ call, p.mover = some call → call ∈ s.moves

/-- What others do leaves a move where it is. -/
theorem Move.Sound.kept {call : Nat} {m : Move Bytes} (h : m.Sound deadLetterExchange s call)
    (hpublished : s'.publishedBy call = s.publishedBy call)
    (hchannels : ∀ n, RoutablePublish.Keeps (s.channel n) (s'.channel n)) :
    m.Sound deadLetterExchange s' call := by
  unfold Move.Sound at h ⊢
  rw [hpublished]
  split
  · next hnone => simpa only [hnone] using h
  · next sending hsending =>
    simp only [hsending] at h
    obtain ⟨watch, hwatch, htoken, hpublished, houtcome⟩ := h
    obtain ⟨watch', hwatch', hkept⟩ := hchannels _ _ _ hwatch
    refine ⟨watch', hwatch', hkept.token.trans htoken, ?_, fun outcome ho => ?_⟩
    · exact hpublished.imp_right (And.imp_right (hkept.refused true))
    · obtain ⟨result, message, hresult, hverdict⟩ := houtcome outcome ho
      exact ⟨result, message, hkept.result result hresult, hverdict⟩

theorem Moved.publishedBy_of_fresh (h : Moved deadLetterExchange s) {call : Nat}
    (hfresh : call ∉ s.moves) : s.publishedBy call = [] := by
  refine List.filter_eq_nil_iff.mpr fun p hp hmover => hfresh ?_
  exact h.movers p hp call (of_decide_eq_true hmover)

/-- A step that no call of `moveToDeadLetter` takes. -/
theorem Moved.same (h : Moved deadLetterExchange s) (hmoves : s'.moves = s.moves)
    (hpublished : s'.published = s.published)
    (hchannels : ∀ n, RoutablePublish.Keeps (s.channel n) (s'.channel n)) :
    Moved deadLetterExchange s' where
  moves call m hm := by
    refine (h.moves call m (hmoves ▸ hm)).kept ?_ hchannels
    rw [State.publishedBy, State.publishedBy, hpublished]
  movers p hp call hmover := hmoves ▸ h.movers p (hpublished ▸ hp) call hmover

/-- A step of one call, in which it may publish. -/
theorem Moved.set (h : Moved deadLetterExchange s) {call : Nat} {m : Move Bytes}
    {publications : List (Publication Bytes)} (hmoves : s'.moves = s.moves.set call m)
    (hpublished : s'.published = s.published ++ publications)
    (hmover : ∀ p ∈ publications, p.mover = some call)
    (hchannels : ∀ n, RoutablePublish.Keeps (s.channel n) (s'.channel n))
    (hm : m.Sound deadLetterExchange s' call) : Moved deadLetterExchange s' where
  moves call' m' hm' := by
    rw [hmoves, OrderedMap.get?_set] at hm'
    split at hm'
    · next heq =>
      cases hm'
      exact heq ▸ hm
    · next hne =>
      refine (h.moves call' m' hm').kept ?_ hchannels
      have hnone : publications.filter (fun p => decide (p.mover = some call')) = [] := by
        refine List.filter_eq_nil_iff.mpr fun p hp hcall => hne ?_
        rw [hmover p hp] at hcall
        exact (Option.some_inj.mp (of_decide_eq_true hcall)).symm
      rw [State.publishedBy, hpublished, List.filter_append, hnone, List.append_nil]
      rfl
  movers p hp call' hcall' := by
    rw [hmoves]
    refine OrderedMap.mem_set.mpr ?_
    rw [hpublished] at hp
    rcases List.mem_append.mp hp with hp | hp
    · exact .inr (h.movers p hp call' hcall')
    · exact .inl (Option.some_inj.mp (hcall'.symm.trans (hmover p hp)))

theorem Moved.publishes (h : Moved deadLetterExchange s) {call : Nat} {m : Move Bytes}
    (hm : s.moves.get? call = some m) (hsending : m.sending = none) (hopen : m.outcome = none)
    (channel : Nat) (time token : String) (throws : Bool) :
    Moved deadLetterExchange (s.publishes deadLetterExchange call m channel time token throws) := by
  have hbefore : s.publishedBy call = [] := by
    have hsound := h.moves call m hm
    simp only [Move.Sound, hsending] at hsound
    exact hsound.1
  refine h.set rfl rfl (fun p hp => ?_) (fun n => ?_) ?_
  · split at hp
    · cases hp
    · cases List.mem_singleton.mp hp
      rfl
  · rw [channel_publishes]
    split
    · next heq => exact heq ▸ RoutablePublish.keeps_publishWatched _ _ _ _
    · exact .refl _
  · obtain ⟨watch, hwatch, htoken, -, hthrows⟩ := RoutablePublish.calls_publishWatched
      (s.channel channel) (watched (m.headers time)) token throws
    refine ⟨watch, ?_, htoken, ?_, fun outcome ho => ?_⟩
    · dsimp only
      rw [channel_publishes, if_pos rfl]
      exact hwatch
    · rw [State.publishedBy, State.publishes]
      dsimp only
      rw [List.filter_append, show s.published.filter _ = [] from hbefore, List.nil_append]
      cases throws with
      | true => exact .inr ⟨rfl, hthrows rfl⟩
      | false =>
        refine .inl ?_
        rw [if_neg Bool.false_ne_true]
        exact List.filter_cons_of_pos (decide_eq_true rfl)
    · cases hopen.symm.trans ho

theorem Steps.moved (hs : Steps deadLetterExchange s event s')
    (h : Moved deadLetterExchange s) : Moved deadLetterExchange s' := by
  cases hs with
  | @sends letter =>
    have hpublished : ∀ call, State.publishedBy { s with
        published := s.published ++ [⟨letter, s.published.length, none⟩] } call =
          s.publishedBy call := by
      intro call
      rw [State.publishedBy, List.filter_append]
      exact List.append_nil _
    refine ⟨fun call m hm => (h.moves call m hm).kept (hpublished call) fun n => .refl _, ?_⟩
    intro p hp call hmover
    rcases List.mem_append.mp hp with hp | hp
    · exact h.movers p hp call hmover
    · cases List.mem_singleton.mp hp
      cases hmover
  | @moveToDeadLetter call id reason message hfresh =>
    refine h.set rfl (List.append_nil _).symm (fun _ hp => nomatch hp) (fun n => .refl _) ?_
    exact ⟨h.publishedBy_of_fresh hfresh, fun _ ho => nomatch ho⟩
  | @noChannel call message m hm hsending =>
    have hsound := h.moves call m hm
    simp only [Move.Sound, hsending] at hsound
    refine h.set rfl (List.append_nil _).symm (fun _ hp => nomatch hp) (fun n => .refl _) ?_
    simp only [Move.Sound, hsending]
    refine ⟨hsound.1, fun outcome ho => ⟨message, ?_⟩⟩
    exact (Option.some_inj.mp ho).symm
  | publishes hm hsending hopen => exact h.publishes hm hsending hopen _ _ _ _
  | @channel n event channel hstep =>
    refine h.same rfl rfl fun k => ?_
    rw [channel_set]
    split
    · next heq => exact heq ▸ (RoutablePublish.step_cases hstep).keeps
    · exact .refl _
  | @resumes call message m sending watch result hm hsending hwatch hresult =>
    have hsound := h.moves call m hm
    simp only [Move.Sound, hsending] at hsound
    obtain ⟨watch', hwatch', htoken, hpublished, -⟩ := hsound
    cases hwatch.symm.trans hwatch'
    refine h.set rfl (List.append_nil _).symm (fun _ hp => nomatch hp) (fun n => .refl _) ?_
    simp only [Move.Sound, hsending]
    refine ⟨watch, hwatch, htoken, hpublished, fun outcome ho => ?_⟩
    exact ⟨result, message, hresult, (Option.some_inj.mp ho).symm⟩
  | subscribes | unsubscribes | declares | grants | refuses | delivers =>
    exact h.same rfl rfl fun n => .refl _

theorem moved_start : Moved deadLetterExchange (start : State Bytes) where
  moves _ _ h := nomatch h
  movers _ h := nomatch h

theorem moved {ok : State Bytes → Event Bytes → Prop}
    (hr : Reach (step deadLetterExchange) ok start s) : Moved deadLetterExchange s :=
  hr.invariant moved_start fun h _ hs => (step_cases hs).moved h

/-- Two queues are created side by side, the second in vain. An order is moved to the dead letter
queue, delivered from there, and moved on to a queue that nobody has bound. -/
def twiceMoved : List (Event Bool) :=
  let order : Letter Bool :=
    ⟨true, .set .empty "x-compressed" (.boolean true), .empty, "shop", "new"⟩
  let dead : Letter Bool := {
    content := true
    headers := spread .empty [("x-compressed", .boolean true), ("x-death-reason", .string "poison"),
      ("x-death-time", .string "now"), ("x-original-exchange", .string "shop"),
      ("x-original-routing-key", .string "new"), ("x-return-token", .string "first"),
      ("x-delivery-count", .number 1)]
    properties := .empty
    exchange := "dlx"
    routingKey := "orders_dlq" }
  [.declares 3 (setupDeadLetterExchange "dlx"), .declares 4 (ensureExchange ⟨"shop", "", none⟩),
    .declares 5 (setupDelayExchange "delay" ⟨"shop", "", none⟩ "topic" ⟨.empty, none⟩),
    .grants 3, .grants 3, .grants 4, .grants 4, .refuses 5 "unknown exchange type",
    .declares 1 (createQueue "dlx" "orders" ⟨.empty, none⟩),
    .declares 2 (createQueue "dlx" "mails" ⟨.empty, none⟩), .grants 1, .grants 2, .grants 1, .grants 1,
    .grants 2, .refuses 2 "PRECONDITION_FAILED", .grants 1, .subscribes "c1" "orders", .sends order,
    .delivers 1 0 "c1" order, .moveToDeadLetter 1 1 (some "poison"), .publishes 1 0 "now" "first" false,
    .subscribes "c2" "orders_dlq", .delivers 2 1 "c2" dead, .moveToDeadLetter 2 2 none,
    .publishes 2 0 "later" "second" false, .channel 0 (.returns 1), .channel 0 (.confirms 0 false),
    .channel 0 (.confirms 1 false), .channel 0 (.settles 1), .channel 0 (.settles 0),
    .resumes 1 "", .resumes 2 ""]

/-- In every run, a call of `moveToDeadLetter` publishes nothing before it has a channel, and then
its message as it is, once, or never when the publish throws. It resolves when the broker has
confirmed that message without handing it back first, and is rejected otherwise. -/
theorem dead_letter_moved (hr : Reach (step deadLetterExchange) Distinct (start : State Bytes) s)
    {call : Nat} {m : Move Bytes} (hm : s.moves.get? call = some m) :
    match m.sending with
    | none => s.publishedBy call = [] ∧
        ∀ outcome, m.outcome = some outcome → ∃ message, outcome = .error message
    | some sending => ∃ watch, (s.channel sending.channel).calls[sending.index]? = some watch ∧
        watch.token = sending.token ∧
        (s.publishedBy call = [⟨m.letter deadLetterExchange sending.time sending.token,
            m.message.origin, some call⟩] ∨
          s.publishedBy call = [] ∧ watch.refused = some true) ∧
        ∀ outcome, m.outcome = some outcome →
          (watch.refused = some true ∧ ∃ message : String, outcome =
            .error s!"Failed to move message to dead letter queue: {message}") ∨
          (watch.refused = some false ∧ outcome =
            if watch.handedBack then .error (m.returned deadLetterExchange) else .ok ()) := by
  have hsound := (moved hr).moves call m hm
  unfold Move.Sound at hsound
  split at hsound
  · exact hsound
  · next sending hsending =>
    obtain ⟨watch, hwatch, htoken, hpublished, houtcome⟩ := hsound
    refine ⟨watch, hwatch, htoken, hpublished, fun outcome ho => ?_⟩
    obtain ⟨result, message, hresult, rfl⟩ := houtcome outcome ho
    -- what the watch reports is what the broker did with this very message
    have hcalls := RoutablePublish.correlated (channel_reach hr sending.channel)
    obtain ⟨refused, hrefused, rfl⟩ :=
      (hcalls.sound watch (List.mem_of_getElem? hwatch)).settled result hresult
    cases refused with
    | true => exact .inl ⟨hrefused, message, rfl⟩
    | false =>
      refine .inr ⟨hrefused, ?_⟩
      cases watch.handedBack <;> rfl

/-- The first move resolves, and the second is told that its message came back. -/
theorem dead_letter_moved_twice : ∃ s : State Bool,
    (s.moves.get? 1).bind (·.outcome) = some (.ok ()) ∧
    ∃ m watch, s.moves.get? 2 = some m ∧ (s.channel 0).calls[1]? = some watch ∧
      watch.handedBack = true ∧ m.outcome = some (.error (m.returned "dlx")) ∧
      (s.publishedBy 2).length = 1 := by
  have hrun : (run (step "dlx") Distinct start twiceMoved).any fun s => decide
      ((s.moves.get? 1).bind (·.outcome) = some (.ok ()) ∧
        ((s.moves.get? 2).any fun m => m.outcome.isSome ∧ m.sending = some ⟨0, 1, "later", "second"⟩) ∧
        ((s.channel 0).calls[1]?.any fun watch => watch.handedBack ∧ watch.refused = some false)) := by
    decide +kernel
  obtain ⟨s, hs, h⟩ := (Option.any_eq_true _ _).mp hrun
  obtain ⟨hfirst, hsecond, hcall⟩ := of_decide_eq_true h
  obtain ⟨m, hm, h⟩ := (Option.any_eq_true _ _).mp hsecond
  obtain ⟨hsome, hsending⟩ := of_decide_eq_true h
  obtain ⟨outcome, ho⟩ := Option.isSome_iff_exists.mp hsome
  obtain ⟨watch, hwatch, h⟩ := (Option.any_eq_true _ _).mp hcall
  obtain ⟨hback, hrefused⟩ := of_decide_eq_true h
  have hmoved := dead_letter_moved (reach_of_run hs) hm
  simp only [hsending] at hmoved
  obtain ⟨watch', hwatch', -, hpublished, houtcome⟩ := hmoved
  cases hwatch.symm.trans hwatch'
  have hconfirmed : watch.refused ≠ some true := by
    rw [hrefused]
    decide
  refine ⟨s, hfirst, m, watch, hm, hwatch, hback, ?_, ?_⟩
  · obtain ⟨-, rfl⟩ := (houtcome outcome ho).resolve_left fun h => hconfirmed h.1
    rw [ho, if_pos hback]
  · rw [hpublished.resolve_right fun h => hconfirmed h.2]
    rfl

/-- The headers that a broker sets itself. -/
def brokerHeaders : List String :=
  ["x-death", "x-first-death-exchange", "x-first-death-queue", "x-first-death-reason",
    "x-last-death-exchange", "x-last-death-queue", "x-last-death-reason", "x-delivery-count",
    "CC", "BCC"]

/-- The headers that `moveToDeadLetter` sets. -/
def moverHeaders : List String :=
  ["x-death-reason", "x-death-time", "x-original-exchange", "x-original-routing-key",
    "x-return-token"]

/-- The content is the same, and so are the headers but for these. -/
def Letter.Same (own : List String) (letter original : Letter Bytes) : Prop :=
  letter.content = original.content ∧
    ∀ key ∉ own, letter.headers.get? key = original.headers.get? key

instance [DecidableEq Bytes] (own : List String) (letter original : Letter Bytes) :
    Decidable (letter.Same own original) :=
  decidable_of_iff (letter.content = original.content ∧
    ∀ key ∈ letter.headers.keys ++ original.headers.keys, key ∉ own →
      letter.headers.get? key = original.headers.get? key) <| by
    refine and_congr_right fun _ => ⟨fun h key hown => ?_, fun h key _ => h key⟩
    by_cases hkey : key ∈ letter.headers.keys ++ original.headers.keys
    · exact h key hkey hown
    · obtain ⟨hnot, hnot'⟩ := not_or.mp (mt List.mem_append.mpr hkey)
      rw [OrderedMap.not_mem_iff.mp hnot, OrderedMap.not_mem_iff.mp hnot']

/-- A broker delivers what was published, but for the headers that are its own. -/
def Faithful (s : State Bytes) : Event Bytes → Prop
  | .delivers _ publication _ letter =>
    ∀ p ∈ s.published[publication]?, letter.Same brokerHeaders p.letter
  | _ => True

instance [DecidableEq Bytes] (s : State Bytes) : (event : Event Bytes) → Decidable (Faithful s event)
  | .delivers _ publication _ letter =>
    inferInstanceAs (Decidable (∀ p ∈ s.published[publication]?, letter.Same brokerHeaders p.letter))
  | .subscribes _ _ | .unsubscribes _ | .declares _ _ | .grants _ | .refuses _ _ | .sends _
  | .moveToDeadLetter _ _ _ | .noChannel _ _ | .publishes _ _ _ _ _ | .channel _ _ | .resumes _ _ =>
    inferInstanceAs (Decidable True)

/-- The message is still the one that was first published at this place. -/
def Letter.From (s : State Bytes) (letter : Letter Bytes) (origin : Nat) : Prop :=
  ∃ original, s.published[origin]? = some original ∧ original.origin = origin ∧
    original.mover = none ∧ letter.Same (brokerHeaders ++ moverHeaders) original.letter

theorem Letter.Same.refl (own : List String) (letter : Letter Bytes) : letter.Same own letter :=
  ⟨rfl, fun _ _ => rfl⟩

/-- A copy that differs in some of these headers is still the message. -/
theorem Letter.From.copy {letter letter' : Letter Bytes} {origin : Nat} {own : List String}
    (h : letter.From s origin) (hsame : letter'.Same own letter)
    (hown : own ⊆ brokerHeaders ++ moverHeaders) : letter'.From s origin := by
  obtain ⟨original, hget, horigin, hmover, hcontent, hheaders⟩ := h
  refine ⟨original, hget, horigin, hmover, hsame.1.trans hcontent, fun key hkey => ?_⟩
  exact (hsame.2 key fun hmem => hkey (hown hmem)).trans (hheaders key hkey)

/-- What is moved is the message but for the headers of the move. -/
theorem same_letter (m : Move Bytes) (time token : String) :
    (m.letter deadLetterExchange time token).Same moverHeaders m.message.letter := by
  have hcontent : (m.letter deadLetterExchange time token).content = m.message.letter.content := by
    rw [Move.letter]
  refine ⟨hcontent, fun key hkey => ?_⟩
  have hne : ∀ own ∈ moverHeaders, own ≠ key := by
    rintro own hown rfl
    exact hkey hown
  have hheaders : (m.letter deadLetterExchange time token).headers =
      (m.headers time).set "x-return-token" (.string token) := by
    rw [Move.letter]
  rw [hheaders, OrderedMap.get?_set, if_neg (hne "x-return-token" (by simp [moverHeaders])).symm,
    Move.headers]
  refine get?_spread fun e he => ?_
  simp only [List.mem_cons, List.not_mem_nil, or_false] at he
  rcases he with rfl | rfl | rfl | rfl
  all_goals exact hne _ (by simp [moverHeaders])

theorem Letter.From.later {letter : Letter Bytes} {origin : Nat} (h : letter.From s origin)
    {publications : List (Publication Bytes)}
    (hpublished : s'.published = s.published ++ publications) : letter.From s' origin := by
  obtain ⟨original, hget, hrest⟩ := h
  refine ⟨original, ?_, hrest⟩
  rw [hpublished]
  exact List.getElem?_append_of hget _

structure Traced (s : State Bytes) : Prop where
  published : ∀ p ∈ s.published, p.letter.From s p.origin
  delivered : ∀ id d, s.deliveries.get? id = some d → d.letter.From s d.origin
  moves : ∀ call m, s.moves.get? call = some m → m.message.letter.From s m.message.origin

theorem traced_start : Traced (start : State Bytes) where
  published _ h := nomatch h
  delivered _ _ h := nomatch h
  moves _ _ h := nomatch h

/-- A step of one call, or of none. -/
theorem Traced.step (h : Traced s) {publications : List (Publication Bytes)}
    (hpublished : s'.published = s.published ++ publications)
    (hnew : ∀ p ∈ publications, p.letter.From s' p.origin)
    (hdelivered : ∀ id d, s'.deliveries.get? id = some d →
      s.deliveries.get? id = some d ∨ d.letter.From s d.origin)
    (hmoves : ∀ call m, s'.moves.get? call = some m →
      (∃ m', s.moves.get? call = some m' ∧ m.message = m'.message) ∨
        m.message.letter.From s m.message.origin) : Traced s' where
  published p hp := by
    rw [hpublished] at hp
    rcases List.mem_append.mp hp with hp | hp
    · exact (h.published p hp).later hpublished
    · exact hnew p hp
  delivered id d hd := by
    rcases hdelivered id d hd with hd | hfrom
    · exact (h.delivered id d hd).later hpublished
    · exact hfrom.later hpublished
  moves call m hm := by
    rcases hmoves call m hm with ⟨m', hm', heq⟩ | hfrom
    · rw [heq]
      exact (h.moves call m' hm').later hpublished
    · exact hfrom.later hpublished

/-- A change of one call that keeps its message. -/
theorem moves_set {call : Nat} {m m' : Move Bytes} (hm : s.moves.get? call = some m)
    (hmessage : m'.message = m.message) (call₀ : Nat) (m₀ : Move Bytes)
    (hget : (s.moves.set call m').get? call₀ = some m₀) :
    ∃ m₁, s.moves.get? call₀ = some m₁ ∧ m₀.message = m₁.message := by
  rw [OrderedMap.get?_set] at hget
  split at hget
  · next heq =>
    cases hget
    exact ⟨m, heq ▸ hm, hmessage⟩
  · exact ⟨m₀, hget, rfl⟩

theorem Steps.traced (hok : Faithful s event) (hs : Steps deadLetterExchange s event s')
    (h : Traced s) : Traced s' := by
  cases hs with
  | @sends letter =>
    refine h.step rfl (fun p hp => ?_) (fun _ _ => .inl) fun _ m hm => .inl ⟨m, hm, rfl⟩
    cases List.mem_singleton.mp hp
    exact ⟨_, List.getElem?_concat_length, rfl, rfl, .refl _ _⟩
  | @delivers id publication consumerTag letter p hp =>
    refine h.step (List.append_nil _).symm (fun _ hp => nomatch hp) (fun id' d hd => ?_)
      fun _ m hm => .inl ⟨m, hm, rfl⟩
    dsimp only at hd
    rw [OrderedMap.get?_set] at hd
    split at hd
    · cases hd
      have hpublished := h.published p (List.mem_of_getElem? hp)
      exact .inr (hpublished.copy (hok p hp) (List.subset_append_left _ _))
    · exact .inl hd
  | @moveToDeadLetter call id reason message hfresh hd =>
    refine h.step (List.append_nil _).symm (fun _ hp => nomatch hp) (fun _ _ => .inl) ?_
    intro call' m hm
    rw [State.moveToDeadLetter] at hm
    dsimp only at hm
    rw [OrderedMap.get?_set] at hm
    split at hm
    · cases hm
      exact .inr (h.delivered id message hd)
    · exact .inl ⟨m, hm, rfl⟩
  | @publishes call channel time token throws m hm =>
    have hpublished : (s.publishes deadLetterExchange call m channel time token throws).published =
      s.published ++ if throws then [] else
        [⟨m.letter deadLetterExchange time token, m.message.origin, some call⟩] := rfl
    refine h.step hpublished (fun p hp => ?_) (fun _ _ => .inl) fun call' m' hm' =>
      .inl (moves_set hm (by rfl) call' m' hm')
    split at hp
    · cases hp
    · cases List.mem_singleton.mp hp
      have hsame : (m.letter deadLetterExchange time token).Same moverHeaders m.message.letter :=
        same_letter m time token
      exact ((h.moves call m hm).copy hsame (List.subset_append_right _ _)).later hpublished
  | noChannel hm | resumes hm =>
    exact h.step (List.append_nil _).symm (fun _ hp => nomatch hp) (fun _ _ => .inl)
      fun call' m' hm' => .inl (moves_set hm (by rfl) call' m' hm')
  | subscribes | unsubscribes | declares | grants | refuses | channel =>
    exact h.step (List.append_nil _).symm (fun _ hp => nomatch hp) (fun _ _ => .inl)
      fun _ m hm => .inl ⟨m, hm, rfl⟩

/-- In every run, however often a message was moved to a dead letter queue and delivered from there,
by a broker that changes no headers but its own, what is delivered of it has the content of that very
message and all of its headers but those of the broker and of the moves; so it decodes as it would
have. -/
theorem dead_letters_decode (hr : Reach (step deadLetterExchange) Faithful (start : State Bytes) s)
    {id : Nat} {d : Delivery Bytes} (hd : s.deliveries.get? id = some d) :
    ∃ original, s.published[d.origin]? = some original ∧ original.mover = none ∧
      d.letter.Same (brokerHeaders ++ moverHeaders) original.letter ∧
      ∀ {V : Type} (node : MessageCodec.Node V Bytes) (codec : MessageCodec.Codec V),
        MessageCodec.decode node codec d.letter.content (isCompressed d.letter.headers) =
          MessageCodec.decode node codec original.letter.content
            (isCompressed original.letter.headers) := by
  have h : Traced s := hr.invariant traced_start fun h hok hs => (step_cases hs).traced hok h
  obtain ⟨original, hget, -, hmover, hsame⟩ := h.delivered id d hd
  refine ⟨original, hget, hmover, hsame, fun node codec => ?_⟩
  have hflag : isCompressed d.letter.headers = isCompressed original.letter.headers := by
    rw [isCompressed, isCompressed, hsame.2 "x-compressed" (by decide)]
  rw [hsame.1, hflag]

/-- The order that is delivered from the dead letter queue is the one that was sent. -/
theorem dead_letters_decode_twice : ∃ (s : State Bool) (d : Delivery Bool),
    s.deliveries.get? 2 = some d ∧ isCompressed d.letter.headers = true ∧
    ∃ original, s.published[0]? = some original ∧
      d.letter.Same (brokerHeaders ++ moverHeaders) original.letter := by
  have hrun : (run (step "dlx") Faithful start twiceMoved).any fun s => decide
      ((s.deliveries.get? 2).any fun d => isCompressed d.letter.headers ∧ d.origin = 0) := by
    decide +kernel
  obtain ⟨s, hs, h⟩ := (Option.any_eq_true _ _).mp hrun
  obtain ⟨d, hd, h⟩ := (Option.any_eq_true _ _).mp (of_decide_eq_true h)
  obtain ⟨hflag, horigin⟩ := of_decide_eq_true h
  obtain ⟨original, hget, -, hsame, -⟩ := dead_letters_decode (reach_of_run hs) hd
  exact ⟨s, d, hd, hflag, original, horigin ▸ hget, hsame⟩

end Topology
end RabbitMQ
