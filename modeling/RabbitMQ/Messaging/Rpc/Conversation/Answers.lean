import RabbitMQ.Messaging.Rpc.Conversation.Requester
import RabbitMQ.Consumers.ConsumePipeline.Custody
import RabbitMQ.Consumers.ConsumePipeline.Settlement

/-! What a caller of `request` is told is what a handler returned or threw for that very request,
read back from the bytes of one reply. -/

namespace RabbitMQ

/-- A step keeps the deliveries. -/
theorem Respond.Steps.deliveries {α : Type} [DecidableEq α] [ToString α]
    {env : ConsumePipeline.Env α} {s s' : Respond.State α} {event : Respond.Event α} {tag : Nat}
    (hs : Respond.Steps env s event s') (hmem : tag ∈ s.pipeline.deliveries) :
    tag ∈ s'.pipeline.deliveries := by
  cases hs with
  | pipeline _ hp | respond hp | deliver _ hp | invoked _ hp | resolved _ _ hp
  | rejected _ _ hp => exact (ConsumePipeline.step_cases hp).evolves.known hmem
  | handled | publishes | fails => exact hmem

namespace Conversation

open Transition
open MessageCodec (Json decode encode fromBuffer toBuffer isCompressed)
open Respond (Publication)

variable {α V Bytes : Type} {c : Config V Bytes} {s s' : State α V Bytes}

/-- What a message is read as at the other end. -/
def Reads (c : Config V Bytes) (m : MessageCodec.Message V Bytes) (content : Json V) : Prop :=
  ∃ buffer, toBuffer c.node c.responder m = .ok buffer ∧
    content = fromBuffer c.node c.requester buffer

/-- What a caller is told of what the handler did. -/
inductive Told (c : Config V Bytes) :
    Except Value (MessageCodec.Message V Bytes) → Answer V → Prop
  | returned {m content} (hreads : Reads c (normalized c m) content) :
      Told c (.ok m) (.resolved content)
  /-- the reply could not be published -/
  | unpublished {m content text}
      (hreads : Reads c (.json (.value (c.envelope
        (.string ("Failed to publish RPC reply: " ++ text))))) content) :
      Told c (.ok m) (.refused content)
  | threw {error shown content} (hshown : describeError error = .ok shown)
      (hreads : Reads c (.json (.value (c.envelope shown))) content) :
      Told c (.error error) (.refused content)

/-- What `#publishReply` is given for what the handler did. -/
inductive Carries (c : Config V Bytes) : Except Value (MessageCodec.Message V Bytes) →
    Publication → MessageCodec.Message V Bytes → Prop
  | reply {m} : Carries c (.ok m) .reply (normalized c m)
  | fallback {m text} : Carries c (.ok m) .fallback
      (.json (.value (c.envelope (.string ("Failed to publish RPC reply: " ++ text)))))
  | envelope {error shown} (hshown : describeError error = .ok shown) :
      Carries c (.error error) .envelope (.json (.value (c.envelope shown)))

/-- A reply of the responders. -/
def Sent (c : Config V Bytes) (handled : List (Handled V Bytes)) (reply : Reply Bytes) : Prop :=
  ∃ h ∈ handled, ∃ publication m gzipFails encoded, h.correlationId = reply.correlationId ∧
    Carries c h.result publication m ∧ encode c.node c.responder gzipFails m = .ok encoded ∧
      reply.content = encoded.content ∧
        reply.headers = replyHeaders encoded.compressed publication

theorem isCompressed_replyHeaders (compressed : Bool) (publication : Publication) :
    isCompressed (replyHeaders compressed publication) = compressed := by
  cases publication <;> cases compressed <;> rfl

theorem isError_replyHeaders {reply : Reply Bytes} {compressed : Bool} {publication : Publication}
    (h : reply.headers = replyHeaders compressed publication) :
    reply.isError = decide (publication ≠ .reply) := by
  rw [Reply.isError, h]
  cases publication <;> rfl

/-- The bytes of a reply are read as the buffer that was encoded. -/
theorem decode_sent (hnode : c.node.Inverse) {m : MessageCodec.Message V Bytes} {gzipFails : Bool}
    {encoded : MessageCodec.Encoded Bytes}
    (hencoded : encode c.node c.responder gzipFails m = .ok encoded) :
    ∃ content, decode c.node c.requester encoded.content encoded.compressed = .ok content ∧
      Reads c m content := by
  cases hbuffer : toBuffer c.node c.responder m with
  | error error =>
    rw [encode, hbuffer] at hencoded
    cases hencoded
  | ok buffer =>
    rw [encode, hbuffer] at hencoded
    cases hencoded
    exact ⟨_, MessageCodec.decode_compressIfNeeded hnode c.responder c.requester gzipFails buffer,
      buffer, hbuffer, rfl⟩

/-- What the requester makes of a reply is what the handler did. -/
theorem Sent.told (hnode : c.node.Inverse) {handled : List (Handled V Bytes)} {reply : Reply Bytes}
    (h : Sent c handled reply) : ∃ tag result, ⟨reply.correlationId, tag, result⟩ ∈ handled ∧
      Told c result (answer reply
        (decode c.node c.requester reply.content (isCompressed reply.headers))) := by
  obtain ⟨⟨k, tag, result⟩, hmem, publication, m, gzipFails, encoded, rfl, hcarries, hencoded,
    hcontent, hheaders⟩ := h
  obtain ⟨content, hdecode, hreads⟩ := decode_sent hnode hencoded
  have herror := isError_replyHeaders hheaders
  refine ⟨tag, result, hmem, ?_⟩
  rw [hheaders, isCompressed_replyHeaders, hcontent, hdecode, answer, herror]
  cases hcarries with
  | reply => exact .returned hreads
  | fallback => exact .unpublished hreads
  | envelope hshown => exact .threw hshown hreads

/-! ## The responders -/

/-- What a call of the callback has on record. -/
structure Traced (s : State α V Bytes) (tag : Nat) (call : Respond.Call) : Prop where
  returned : call.handler = some (.ok ()) → ∃ m, s.results.get? tag = some m ∧
    ∀ k, s.origins.get? tag = some k → ⟨k, tag, .ok m⟩ ∈ s.handled
  threw : ∀ error, call.handler = some (.error error) →
    ∀ k, s.origins.get? tag = some k → ⟨k, tag, .error error⟩ ∈ s.handled
  replying : ∀ publication leg, call.stage = .publishing publication leg →
    if publication = .envelope then ∃ error, call.handler = some (.error error)
    else call.handler = some (.ok ())

structure Served (c : Config V Bytes) (s : State α V Bytes) : Prop where
  known : ∀ tag, tag ∈ s.origins ∨ tag ∈ s.respond.calls → tag ∈ s.respond.pipeline.deliveries
  call : ∀ tag call, s.respond.calls.get? tag = some call → Traced s tag call
  sent : ∀ reply ∈ s.replies, Sent c s.handled reply

theorem served_start : Served c (start : State α V Bytes) where
  known _ h := h.elim nofun nofun
  call _ _ h := nomatch h
  sent _ h := nomatch h

theorem Traced.begin (request : Respond.Request) (now : ℚ) (tag : Nat) :
    Traced s tag (.begin request now) := by
  unfold Respond.Call.begin
  split <;> exact ⟨nofun, nofun, nofun⟩

/-- The handler's result is on record as soon as the callback has it. -/
theorem Traced.handled {call : Respond.Call} {tag : Nat}
    (result : Except Value (MessageCodec.Message V Bytes)) :
    Traced { s with
      results := withResult s.results tag result
      handled := s.handled ++
        (s.origins.get? tag).toList.map fun correlationId => ⟨correlationId, tag, result⟩ }
      tag (call.handled (result.map fun _ => ())) := by
  have hlogged : ∀ k, s.origins.get? tag = some k → (⟨k, tag, result⟩ : Handled V Bytes) ∈
      s.handled ++ (s.origins.get? tag).toList.map fun correlationId =>
        ⟨correlationId, tag, result⟩ := by
    intro k hk
    rw [hk]
    exact List.mem_append_right _ (List.mem_singleton_self _)
  cases result with
  | ok m =>
    refine ⟨fun _ => ⟨m, OrderedMap.get?_set_self _ _ _, hlogged⟩, nofun, ?_⟩
    intro publication leg hstage
    change (if _ then Respond.Stage.publishing .reply .getChannel else .resolved) = _ at hstage
    split at hstage
    · cases hstage
      exact rfl
    · cases hstage
  | error error =>
    refine ⟨nofun, fun e he => ?_, ?_⟩
    · cases he
      exact hlogged
    · intro publication leg hstage
      simp only [Respond.Call.handled, Except.map] at hstage
      split at hstage
      · split at hstage
        · cases hstage
          exact ⟨error, rfl⟩
        · cases hstage
      · cases hstage

/-- An await of `#publishReply` leaves what the handler did. -/
theorem Traced.publishing {call call' : Respond.Call} {tag : Nat} (h : Traced s tag call)
    (hhandler : call'.handler = call.handler) {publication : Publication} {leg : Respond.Leg}
    (hstage : call.stage = .publishing publication leg)
    (hnext : ∀ publication' leg', call'.stage = .publishing publication' leg' →
      (publication' = .envelope ↔ publication = .envelope)) : Traced s tag call' := by
  refine ⟨fun hok => h.returned (hhandler ▸ hok), fun error herror => h.threw error (hhandler ▸ herror),
    fun publication' leg' hstage' => ?_⟩
  have hbefore := h.replying publication leg hstage
  rw [hhandler]
  rw [← if_congr (hnext publication' leg' hstage') rfl rfl] at hbefore
  exact hbefore

theorem Traced.publishes {call : Respond.Call} {tag : Nat} (h : Traced s tag call)
    {publication : Publication} {leg : Respond.Leg}
    (hstage : call.stage = .publishing publication leg) :
    Traced s tag (call.publishes publication leg) := by
  refine h.publishing ?_ hstage fun publication' leg' hnext => ?_
  · cases leg <;> rfl
  · cases leg <;> cases hnext <;> exact .rfl

theorem Traced.fails {call : Respond.Call} {tag : Nat} (h : Traced s tag call)
    {publication : Publication} {leg : Respond.Leg}
    (hstage : call.stage = .publishing publication leg) (error : Value) :
    Traced s tag (call.fails publication error) := by
  refine h.publishing rfl hstage fun publication' leg' hnext => ?_
  cases publication with
  | reply =>
    simp only [Respond.Call.fails] at hnext
    split at hnext <;> cases hnext
    exact ⟨nofun, nofun⟩
  | fallback =>
    simp only [Respond.Call.fails] at hnext
    split at hnext <;> cases hnext
  | envelope => cases hnext

/-- What a step of one delivery leaves of the others. -/
theorem Traced.frame {call : Respond.Call} {tag : Nat} (h : Traced s tag call)
    (hresults : s'.results.get? tag = s.results.get? tag)
    (horigins : s'.origins.get? tag = s.origins.get? tag)
    (hhandled : ∀ x ∈ s.handled, x ∈ s'.handled) : Traced s' tag call where
  returned hok := by
    obtain ⟨m, hm, hlogged⟩ := h.returned hok
    exact ⟨m, hresults.trans hm, fun k hk => hhandled _ (hlogged k (horigins ▸ hk))⟩
  threw error herror k hk := hhandled _ (h.threw error herror k (horigins ▸ hk))
  replying := h.replying

/-- What `#publishReply` encodes carries what the handler did. -/
theorem Traced.carries {call : Respond.Call} {tag k : Nat} (h : Traced s tag call)
    (hk : s.origins.get? tag = some k) {publication : Publication} {leg : Respond.Leg}
    (hstage : call.stage = .publishing publication leg) {m : MessageCodec.Message V Bytes}
    (hpayload : payload c (s.results.get? tag) call publication = some m) :
    ∃ result, ⟨k, tag, result⟩ ∈ s.handled ∧ Carries c result publication m := by
  have hhandler := h.replying publication leg hstage
  cases publication with
  | reply =>
    obtain ⟨m', hm', hlogged⟩ := h.returned hhandler
    obtain ⟨m'', hm'', rfl⟩ := Option.map_eq_some_iff.mp hpayload
    cases hm'.symm.trans hm''
    exact ⟨.ok m', hlogged k hk, .reply⟩
  | fallback =>
    obtain ⟨m', -, hlogged⟩ := h.returned hhandler
    obtain ⟨error, -, herror⟩ := Option.bind_eq_some_iff.mp hpayload
    obtain ⟨text, -, rfl⟩ := Option.map_eq_some_iff.mp herror
    exact ⟨.ok m', hlogged k hk, .fallback⟩
  | envelope =>
    obtain ⟨error, herror⟩ := hhandler
    rw [payload, herror] at hpayload
    dsimp only at hpayload
    obtain ⟨shown, hshown, rfl⟩ := Option.map_eq_some_iff.mp hpayload
    have hdescribed : describeError error = .ok shown := by
      cases hd : describeError error with
      | ok value =>
        rw [hd] at hshown
        cases hshown
        rfl
      | error e =>
        rw [hd] at hshown
        cases hshown
    exact ⟨.error error, h.threw error herror k hk, .envelope hdescribed⟩

theorem Sent.mono {handled handled' : List (Handled V Bytes)} {reply : Reply Bytes}
    (h : Sent c handled reply) (hsub : ∀ x ∈ handled, x ∈ handled') : Sent c handled' reply := by
  obtain ⟨x, hmem, hx⟩ := h
  exact ⟨x, hsub x hmem, hx⟩

/-- The requester's steps leave the responders alone. -/
theorem Served.requests (h : Served c s) (hrespond : s'.respond = s.respond)
    (horigins : s'.origins = s.origins) (hresults : s'.results = s.results)
    (hhandled : s'.handled = s.handled) (hreplies : s'.replies = s.replies) : Served c s' where
  known tag hmem := by
    rw [hrespond, horigins] at *
    exact h.known tag hmem
  call tag call hget := by
    rw [hrespond] at hget
    exact (h.call tag call hget).frame (by rw [hresults]) (by rw [horigins])
      fun _ hx => hhandled ▸ hx
  sent reply hmem := by
    rw [hhandled]
    exact h.sent reply (hreplies ▸ hmem)

variable [DecidableEq α] [ToString α] {env : ConsumePipeline.Env α}

/-- A step of the responders that begins no delivery and goes on with the call of one at most. -/
theorem Served.goesOn (h : Served c s) {event : Respond.Event α}
    (hs : Respond.Steps env s.respond event s'.respond) (horigins : s'.origins = s.origins)
    (hcalls : ∀ tag, tag ∈ s'.respond.calls → tag ∈ s'.respond.pipeline.deliveries)
    (hhandled : ∀ x ∈ s.handled, x ∈ s'.handled)
    (hcall : ∀ tag call, s'.respond.calls.get? tag = some call →
      (s.respond.calls.get? tag = some call ∧ s'.results.get? tag = s.results.get? tag) ∨
        Traced s' tag call)
    (hsent : ∀ reply ∈ s'.replies, reply ∈ s.replies ∨ Sent c s.handled reply) : Served c s' where
  known tag hmem := by
    rcases hmem with hmem | hmem
    · exact hs.deliveries (h.known tag (.inl (horigins ▸ hmem)))
    · exact hcalls tag hmem
  call tag call hget := by
    rcases hcall tag call hget with ⟨hbefore, hresults⟩ | htraced
    · exact (h.call tag call hbefore).frame hresults (by rw [horigins]) hhandled
    · exact htraced
  sent reply hmem := by
    rcases hsent reply hmem with hbefore | hnew
    · exact (h.sent reply hbefore).mono hhandled
    · exact hnew.mono hhandled

/-- A step that leaves the calls alone. -/
theorem Served.beside (h : Served c s) {event : Respond.Event α}
    (hs : Respond.Steps env s.respond event s'.respond)
    (hcalls : s'.respond.calls = s.respond.calls) (horigins : s'.origins = s.origins)
    (hresults : s'.results = s.results) (hhandled : s'.handled = s.handled)
    (hreplies : s'.replies = s.replies) : Served c s' := by
  refine h.goesOn hs horigins (fun tag hmem => ?_) (fun _ hx => hhandled ▸ hx)
    (fun tag call hget => .inl ⟨hcalls ▸ hget, by rw [hresults]⟩) fun reply hmem =>
      .inl (hreplies ▸ hmem)
  exact hs.deliveries (h.known tag (.inr (hcalls ▸ hmem)))

/-- A delivery that begins has no call yet. -/
theorem Served.delivers (h : Served c s) {subscription correlationId : Nat} {message : RabbitMQ.Message α}
    {replyTo : Bool} {deadline : Option ℚ} {respond : Respond.State α}
    (hs : Respond.Steps env s.respond (.deliver subscription message replyTo deadline) respond) :
    Served c { s with respond, origins := s.origins.set message.tag correlationId } := by
  cases hs with
  | @deliver _ _ _ _ replyOnError pipeline hresponder hp =>
    have hevolves := (ConsumePipeline.step_cases hp).evolves
    have hfresh : message.tag ∉ s.respond.pipeline.deliveries ∧
        message.tag ∈ pipeline.deliveries := by
      cases ConsumePipeline.step_cases hp with
      | deliver _ hfresh => exact ⟨hfresh, OrderedMap.mem_set.mpr (.inl rfl)⟩
    refine ⟨fun tag hmem => ?_, fun tag call hget => ?_, h.sent⟩
    · rcases hmem with hmem | hmem
      · rcases OrderedMap.mem_set.mp hmem with rfl | hmem
        · exact hfresh.2
        · exact hevolves.known (h.known tag (.inl hmem))
      · exact hevolves.known (h.known tag (.inr hmem))
    · refine (h.call tag call hget).frame rfl ?_ fun _ => id
      refine (OrderedMap.get?_set _ _ _ _).trans (if_neg ?_)
      rintro rfl
      exact hfresh.1 (h.known _ (.inr (OrderedMap.mem_of_get? hget)))

theorem Served.invoked (h : Served c s) {tag : Nat} {now : ℚ} {respond : Respond.State α}
    {started : List Started} (hs : Respond.Steps env s.respond (.invoked tag now) respond) :
    Served c { s with respond, started } := by
  have hs' := hs
  cases hs with
  | @invoked _ _ request pipeline hrequest hp =>
    have hmem : tag ∈ pipeline.deliveries := by
      refine (ConsumePipeline.step_cases hp).evolves.known ?_
      cases ConsumePipeline.step_cases hp with
      | decoded hd => exact OrderedMap.mem_of_get? (ConsumePipeline.lookup_eq_some.mp hd).1
    refine h.goesOn hs' rfl (fun t ht => ?_) (fun _ => id) (fun t call hget => ?_)
      fun reply => .inl
    · rcases OrderedMap.mem_set.mp ht with rfl | ht
      · exact hmem
      · exact hs'.deliveries (h.known t (.inr ht))
    · dsimp only at hget
      rw [OrderedMap.get?_set] at hget
      split at hget
      · cases hget
        exact .inr (.begin request now t)
      · exact .inl ⟨hget, rfl⟩

/-- The call of a delivery goes on. -/
theorem Served.calls_known (h : Served c s) {event : Respond.Event α} {respond : Respond.State α}
    (hs : Respond.Steps env s.respond event respond) {tag : Nat} {call call' : Respond.Call}
    (hcall : s.respond.calls.get? tag = some call)
    (hcalls : respond.calls = s.respond.calls.set tag call') (t : Nat) (ht : t ∈ respond.calls) :
    t ∈ respond.pipeline.deliveries := by
  rw [hcalls] at ht
  refine hs.deliveries (h.known t (.inr ?_))
  rcases OrderedMap.mem_set.mp ht with rfl | ht
  · exact OrderedMap.mem_of_get? hcall
  · exact ht

theorem Served.handled (h : Served c s) {tag : Nat}
    {result : Except Value (MessageCodec.Message V Bytes)} {respond : Respond.State α}
    (hs : Respond.Steps env s.respond (.handled tag (result.map fun _ => ())) respond) :
    Served c { s with
      respond
      results := withResult s.results tag result
      handled := s.handled ++
        (s.origins.get? tag).toList.map fun correlationId => ⟨correlationId, tag, result⟩ } := by
  have hs' := hs
  cases hs with
  | @handled _ _ call hcall hstage =>
    refine h.goesOn hs' rfl (h.calls_known hs' hcall rfl)
      (fun _ hx => List.mem_append_left _ hx) (fun t call' hget => ?_) fun reply => .inl
    dsimp only at hget
    rw [OrderedMap.get?_set] at hget
    split at hget
    · next heq =>
      cases hget
      subst heq
      exact .inr ((Traced.handled result).frame rfl rfl fun _ => id)
    · next hne =>
      refine .inl ⟨hget, ?_⟩
      cases result with
      | ok m => exact (OrderedMap.get?_set _ _ _ _).trans (if_neg hne)
      | error error => rfl

/-- An await of `#publishReply` settles, with what it published. -/
theorem Served.publishes (h : Served c s) {tag : Nat} {result : Except Value Unit}
    {respond : Respond.State α} {replies : List (Reply Bytes)}
    (hs : Respond.Steps env s.respond (.publishes tag result) respond)
    (hsent : ∀ reply ∈ replies, reply ∈ s.replies ∨ Sent c s.handled reply) :
    Served c { s with respond, replies } := by
  have hs' := hs
  cases hs with
  | @publishes _ call publication leg hcall hstage =>
    refine h.goesOn hs' rfl (h.calls_known hs' hcall rfl) (fun _ => id) (fun t call' hget => ?_)
      hsent
    dsimp only at hget
    rw [OrderedMap.get?_set] at hget
    split at hget
    · next heq =>
      cases hget
      subst heq
      exact .inr (((h.call t call hcall).publishes hstage).frame rfl rfl fun _ => id)
    · exact .inl ⟨hget, rfl⟩
  | @fails _ call publication leg error hcall hstage =>
    refine h.goesOn hs' rfl (h.calls_known hs' hcall rfl) (fun _ => id) (fun t call' hget => ?_)
      hsent
    dsimp only at hget
    rw [OrderedMap.get?_set] at hget
    split at hget
    · next heq =>
      cases hget
      subst heq
      exact .inr (((h.call t call hcall).fails hstage error).frame rfl rfl fun _ => id)
    · exact .inl ⟨hget, rfl⟩

theorem Steps.served {event : Event α V Bytes} (hs : Steps c env s event s') (h : Served c s) :
    Served c s' := by
  cases hs with
  | tick | request | requester | encodeFails | encoded | timerFires | replyArrives | strayArrives
  | decoded => exact h.requests rfl rfl rfl rfl rfl
  | responder hs =>
    have H := Respond.step_cases hs
    cases H with
    | pipeline hpasses hp => exact h.beside (.pipeline hpasses hp) rfl rfl rfl rfl rfl
  | respond hs =>
    have H := Respond.step_cases hs
    cases H with
    | respond hp => exact h.beside (.respond hp) rfl rfl rfl rfl rfl
  | delivers _ hs => exact h.delivers (Respond.step_cases hs)
  | deliversOther hs =>
    have H := Respond.step_cases hs
    cases H with
    | deliver hresponder hp => exact h.beside (.deliver hresponder hp) rfl rfl rfl rfl rfl
  | invoked hs => exact h.invoked (Respond.step_cases hs)
  | handled hs => exact h.handled (Respond.step_cases hs)
  | @published tag call publication m gzipFails encoded respond hcall hstage hpayload hencoded hs =>
    refine h.publishes (Respond.step_cases hs) fun reply hmem => ?_
    rcases List.mem_append.mp hmem with hmem | hmem
    · exact .inl hmem
    · obtain ⟨k, hk, rfl⟩ := List.mem_map.mp hmem
      have hk' : s.origins.get? tag = some k := Option.mem_toList.mp hk
      obtain ⟨result, hlogged, hcarries⟩ := (h.call tag call hcall).carries hk' hstage hpayload
      exact .inr ⟨⟨k, tag, result⟩, hlogged, publication, m, gzipFails, encoded, rfl, hcarries,
        hencoded, rfl, rfl⟩
  | awaited hs => exact h.publishes (Respond.step_cases hs) fun reply => .inl
  | returned hs =>
    have H := Respond.step_cases hs
    cases H with
    | resolved hc hstage hp => exact h.beside (.resolved hc hstage hp) rfl rfl rfl rfl rfl
    | rejected hc hstage hp => exact h.beside (.rejected hc hstage hp) rfl rfl rfl rfl rfl

theorem served {ok : State α V Bytes → ConsumePipeline.Env α × Event α V Bytes → Prop}
    (hr : Reach (step c) ok start s) : Served c s :=
  hr.invariant served_start fun h _ hs => (step_cases hs).served h

/-! ## Every run -/

/-- What the callers are told. -/
structure Faithful (c : Config V Bytes) (s : State α V Bytes) : Prop where
  /-- the requests that a reply settles are those that are told an answer, -/
  settled : s.rpc.answers = s.answers.map Answered.settlement
  /-- each of them one, -/
  once : (s.answers.map (·.request)).Nodup
  /-- which is what a handler did that was called for this very request -/
  told : ∀ a ∈ s.answers, s.rpc.issued.get? a.correlationId = some a.request ∧
    ∃ tag result, ⟨a.correlationId, tag, result⟩ ∈ s.handled ∧ Told c result a.answer

/-- However requests, deliveries and replies are reordered, repeated or lost, a caller is told at
most once, and what it is told is what a handler returned or threw for its own request. -/
theorem callers_are_told (hnode : c.node.Inverse) (hr : Reach (step c) anyStep start s) :
    Faithful c s := by
  have hheard := heard hr
  have hkept := Rpc.kept_of_reach (requester_reach hr)
  refine ⟨hheard.settled, ?_, fun a ha => ?_⟩
  · have hsub : (s.answers.map (·.request)).Sublist (s.rpc.settled.map (·.request)) := by
      have hmap : s.answers.map (·.request) = s.rpc.answers.map (·.request) := by
        rw [hheard.settled, List.map_map]
        rfl
      rw [hmap]
      exact List.filter_sublist.map _
    exact hkept.once.sublist hsub
  · obtain ⟨hissued, reply, hmem, hk, hanswer⟩ := hheard.answered a ha
    obtain ⟨tag, result, hlogged, htold⟩ := ((served hr).sent reply hmem).told hnode
    exact ⟨hissued, tag, result, hk ▸ hlogged, hanswer ▸ htold⟩

/-- Ends that speak of booleans: the responders compress what they send. -/
def booleans (skew : ℚ) : Config Bool (List UInt16) where
  node := MessageCodec.ascii
  requester := MessageCodec.ascii.codec false 1000
  responder := MessageCodec.ascii.codec true 2
  null := false
  envelope _ := false
  skew := skew

/-- One request is delivered twice, and only the first of the two replies is heard; the handler of
the other request throws. -/
private def deliveredTwice : List (ConsumePipeline.Env String × Event String Bool (List UInt16)) :=
  [.request 1 none, .request 2 none, .requester (.preflighted 1 true true),
    .requester (.preflighted 2 true true), .requester (.channelOpened (some 7)),
    .requester (.consumed true), .encoded 1 (some 10), .encoded 2 (some 20),
    .respond 0 3 false .once true, .delivers 0 { tag := 1 } 10, .delivers 0 { tag := 2 } 20,
    .delivers 0 { tag := 3 } 10, .invoked 1, .invoked 2, .invoked 3,
    .handled 3 (.ok (.json (.value false))), .handled 2 (.error .null),
    .handled 1 (.ok (.json (.value true))), .publishes 2 none false, .publishes 2 none false,
    .publishes 1 none false, .publishes 1 none false, .publishes 3 none false,
    .publishes 3 none true, .replyArrives 7 1, .replyArrives 7 2, .replyArrives 7 0, .decoded 20,
    .decoded 10].map (ConsumePipeline.Env.calm, ·)

theorem callers_are_told_deliveredTwice : ∃ s : State String Bool (List UInt16),
    Faithful (booleans 0) s ∧
      s.answers = [⟨2, 20, .refused (.value false)⟩, ⟨1, 10, .resolved (.value true)⟩] := by
  have hrun : (run (step (booleans 0)) anyStep start deliveredTwice).any fun s => decide
      (s.answers = [⟨2, 20, .refused (.value false)⟩, ⟨1, 10, .resolved (.value true)⟩]) := by
    decide +kernel
  obtain ⟨s, hs, hanswers⟩ := (Option.any_eq_true _ _).mp hrun
  exact ⟨s, callers_are_told MessageCodec.ascii_inverse (reach_of_run hs), of_decide_eq_true hanswers⟩

end Conversation
end RabbitMQ
