import RabbitMQ.Consumers.ConsumerManager.Consumers

/-! A consumer answers to every tag that it has obtained for as long as it is registered, and to none
afterwards. -/

namespace RabbitMQ
namespace ConsumerManager

open Transition State

variable {s t : State} {event : Event} {consumer consumerTag : Nat}

/-! ## Lookups -/

/-- `#validateSubscribeArgs` refuses a blank name. -/
structure QueueName where
  name : String
  nonempty : name ≠ ""

section Lookups

-- the queue that each consumer was subscribed to, by its number
variable (queueName : Nat → QueueName) (s : State)

/-- `findQueueNameByTag`: it reads the queue of a consumer that is not there, and throws. -/
def findQueueNameByTag (consumerTag : Option Nat) : Except String (Option String) :=
  match consumerTag.bind s.consumersByTag.get? with
  | none => .ok none
  | some consumer =>
    if consumer ∈ s.activeConsumers then .ok (some (queueName consumer).name)
    else .error "Cannot read properties of undefined (reading 'queueName')"

/-- The routing key with which `moveToDeadLetter` publishes a message that has these fields. -/
def deadLetterQueue (consumerTag : Option Nat) (routingKey : String) : Except String String := do
  match ← findQueueNameByTag queueName s consumerTag with
  | none => return routingKey ++ "_dlq"
  | some sourceQueue => return (if sourceQueue = "" then routingKey else sourceQueue) ++ "_dlq"

variable {queueName s}

theorem TagsRegistered.findQueueNameByTag (h : TagsRegistered s) (consumerTag : Option Nat) :
    ∃ name, findQueueNameByTag queueName s consumerTag = .ok name := by
  unfold ConsumerManager.findQueueNameByTag
  cases hget : consumerTag.bind s.consumersByTag.get? with
  | none => exact ⟨none, rfl⟩
  | some consumer =>
    obtain ⟨tag, _, htag⟩ := Option.bind_eq_some_iff.mp hget
    have hactive := h tag consumer htag
    exact ⟨_, if_pos hactive⟩

theorem TagsRegistered.deadLetterQueue (h : TagsRegistered s)
    (htag : s.consumersByTag.get? consumerTag = some consumer) (routingKey : String) :
    deadLetterQueue queueName s (some consumerTag) routingKey =
      .ok ((queueName consumer).name ++ "_dlq") := by
  have hfind : ConsumerManager.findQueueNameByTag queueName s (some consumerTag) =
      .ok (some (queueName consumer).name) := by
    rw [ConsumerManager.findQueueNameByTag, Option.bind_some, htag]
    exact if_pos (h _ _ htag)
  rw [ConsumerManager.deadLetterQueue, hfind]
  exact congrArg (fun name => Except.ok (name ++ "_dlq")) (if_neg (queueName consumer).nonempty)

end Lookups

/-! ## Runs -/

/-- A step, with what it tracks. -/
def trackedStep (s : State) (event : Event) : Option (State × List Tracked) :=
  (step s event).map fun t => (t, tracks s event)

/-- The broker gives no consumer a tag that another one has had. -/
def TagsUnshared (s : State) : Event → Prop
  | .consumeOk k consumerTag => ∀ setup, s.setups[k]? = some setup →
    ∀ consume ∈ s.consumes, consume.consumerTag = consumerTag → consume.consumer = setup.consumer
  | _ => True

instance : Decidable (TagsUnshared s event) := by
  unfold TagsUnshared
  split
  · exact decidable_of_iff (∀ setup ∈ s.setups[_]?, _)
      (forall_congr' fun _ => imp_congr_left Option.mem_def)
  · infer_instance

/-! ## Consumes -/

/-- Who holds a tag of the broker, and on which channel. -/
def Consume.held (c : Consume) : Tracked := ⟨c.consumer, c.channel, c.consumerTag⟩

def State.held (s : State) : List Tracked := s.consumes.map Consume.held

/-- What a step adds to the tags that are held. -/
inductive HeldCases (s : State) (event : Event) (e : Tracked) : Prop
  | kept (h : e ∈ s.held)
  | begins {k setup} (hevent : event = .consumeOk k e.consumerTag)
      (hk : s.setups[k]? = some setup) (hstage : setup.stage = .consuming e.channel)
      (hconsumer : setup.consumer = e.consumer)

theorem cancel_held (channel consumerTag : Nat) : (s.cancel channel consumerTag).held = s.held := by
  unfold cancel
  split
  · refine (List.map_map ..).trans (List.map_congr_left fun c _ => ?_)
    dsimp only [Function.comp]
    split <;> rfl
  · rfl

/-- No tag is forgotten, and a consume that succeeds adds its own. -/
theorem Steps.held (h : Steps s event t) :
    t.held = s.held ∨ ∃ k setup channel consumerTag, event = .consumeOk k consumerTag ∧
      s.setups[k]? = some setup ∧ setup.stage = .consuming channel ∧
      t.held = s.held ++ [⟨setup.consumer, channel, consumerTag⟩] := by
  cases h with
  | unsubscribeCancelled => exact .inl (cancel_held _ _)
  | setupCancelled => exact .inl (by simpa [State.held] using cancel_held _ _)
  | consumeOk hk hstage =>
    refine .inr ⟨_, _, _, _, rfl, hk, hstage, ?_⟩
    simp [State.held, State.consumeOk, setSetup, Consume.held]
  | brokerCancels hi =>
    refine .inl ?_
    simp only [State.held, handleConsumerLoss_frame]
    exact List.map_set_of_same hi rfl
  | _ =>
    refine .inl ?_
    simp [State.held, setLoop, setDrop, setSetup, modifyConsumer, State.channelOpened, tryAgain,
      closePool, State.connectionLost]

theorem Steps.held_cases (h : Steps s event t) {e : Tracked} (he : e ∈ t.held) :
    HeldCases s event e := by
  rcases h.held with heq | ⟨k, setup, channel, consumerTag, hevent, hk, hstage, heq⟩
  · exact .kept (heq ▸ he)
  · rw [heq] at he
    rcases List.mem_append.mp he with he | he
    · exact .kept he
    · cases List.mem_singleton.mp he
      exact .begins hevent hk hstage rfl

theorem Steps.held_mono (h : Steps s event t) {e : Tracked} (he : e ∈ s.held) : e ∈ t.held := by
  rcases h.held with heq | ⟨_, _, _, _, _, _, _, heq⟩
  · exact heq ▸ he
  · exact heq ▸ List.mem_append_left _ he

/-! ## The index -/

theorem getElem?_of_modify_stage {setups : List Setup} {j k : Nat} {setup : Setup}
    {stage : SetupStage}
    (h : (setups.modify j fun setup => { setup with stage })[k]? = some setup)
    (hne : setup.stage ≠ stage) : setups[k]? = some setup := by
  obtain ⟨setup₀, hk, rfl⟩ := List.getElem?_modify_cases h
  split at hne
  · exact absurd rfl hne
  · next hj => rw [if_neg hj, hk]

/-- A setup whose consume has succeeded holds the tag. -/
theorem Steps.consumed (h : Steps s event t) {k channel : Nat} {setup : Setup}
    (hk : t.setups[k]? = some setup) (hstage : setup.stage = .consumed channel consumerTag) :
    s.setups[k]? = some setup ∨ ⟨setup.consumer, channel, consumerTag⟩ ∈ t.held := by
  have hbegins : ∀ {s₀ : State} {X}, setup.stage ≠ s₀.getDedicatedChannel X := by
    intro s₀ X heq
    rw [hstage] at heq
    rcases getDedicatedChannel_cases s₀ X with heq' | ⟨_, heq'⟩ | ⟨_, heq'⟩ <;>
      cases heq.trans heq'
  cases h with
  | subscribe | loopTries | recreates =>
    rcases List.getElem?_append_cases hk with hk | ⟨_, rfl⟩
    · exact .inl hk
    · exact absurd rfl hbegins
  | channelOpened | prefetched => exact .inl (getElem?_of_modify_stage hk (by rw [hstage]; simp))
  | @setupContinues j setup' =>
    left
    have hsetups : (s.releaseDedicatedChannel setup'.consumer).2.setups = s.setups := by simp
    unfold State.setupContinues at hk
    split at hk
    · rw [← hsetups]
      exact getElem?_of_modify_stage hk (by rw [hstage]; simp)
    · split at hk
      · rw [settleSetup_setups] at hk
        exact getElem?_of_modify_stage hk (by rw [hstage]; simp)
      · split at hk <;> exact getElem?_of_modify_stage hk (by rw [hstage]; simp)
  | consumeOk hj hconsuming =>
    obtain ⟨setup₀, hk₀, heq⟩ := List.getElem?_modify_cases hk
    split at heq
    · next hjk =>
      subst hjk heq
      cases hk₀.symm.trans hj
      cases hstage
      right
      simp [State.held, State.consumeOk, setSetup, Consume.held]
    · exact .inl (heq ▸ hk₀)
  | setupCompletes =>
    left
    unfold State.setupCompletes at hk
    split at hk
    · exact getElem?_of_modify_stage hk (by rw [hstage]; simp)
    · rw [settleSetup_setups] at hk
      exact getElem?_of_modify_stage hk (by rw [hstage]; simp)
  | setupCancelled =>
    left
    simp only [settleSetup_setups, cancel_frame] at hk
    exact getElem?_of_modify_stage hk (by rw [hstage]; simp)
  | setupReleased | setupFails =>
    left
    rw [settleSetup_setups] at hk
    exact getElem?_of_modify_stage hk (by rw [hstage]; simp)
  | _ =>
    left
    simpa [setLoop, setDrop, modifyConsumer, closePool, State.connectionLost] using hk

/-- What a step tracks is in the index. -/
theorem Steps.tracked_tag (h : Steps s event t) {e : Tracked} (he : e ∈ tracks s event) :
    t.consumersByTag.get? e.consumerTag = some e.consumer := by
  obtain ⟨k, setup, rfl, hk, hstage, hconsumer, hactive, -⟩ := tracks_mem he
  cases h with
  | setupCompletes hk' hstage' =>
    cases hk'.symm.trans hk
    cases hstage'.symm.trans hstage
    unfold State.setupCompletes
    split
    · next hgone =>
      rw [tracks_of_cancelled hk hstage hgone] at he
      cases he
    · rw [(settleSetup_frame ..).2.1, ← hconsumer]
      exact OrderedMap.get?_set_self ..

/-- A tag stays with its consumer while the consumer is registered, unless a setup tracks it
again. -/
theorem Steps.tag_kept (h : Steps s event t) (hreg : Registered s)
    (htag : s.consumersByTag.get? consumerTag = some consumer)
    (hactive : consumer ∈ t.activeConsumers) :
    t.consumersByTag.get? consumerTag = some consumer ∨
      ∃ e ∈ tracks s event, e.consumerTag = consumerTag := by
  cases h with
  | @setupCompletes k setup channel tag hk hstage =>
    by_cases hgone : setup.consumer ∉ s.activeConsumers ∨ s.cancelled setup.consumer
    · left
      rw [State.setupCompletes, if_pos hgone]
      exact htag
    · have htracks := tracks_of_consumed hk hstage hgone
      rcases eq_or_ne consumerTag tag with rfl | hne
      · exact .inr ⟨_, htracks ▸ List.mem_singleton_self _, rfl⟩
      · left
        rw [State.setupCompletes, if_neg hgone, (settleSetup_frame ..).2.1]
        change (s.consumersByTag.set tag setup.consumer).get? consumerTag = _
        rw [OrderedMap.get?_set, if_neg hne]
        exact htag
  | @removeConsumer d drop workers =>
    left
    rw [(removeConsumer_registry s d drop workers).1] at hactive
    rw [(removeConsumer_registry s d drop workers).2.1]
    refine OrderedMap.get?_filter.mpr ⟨htag, decide_eq_true ?_⟩
    exact (hreg.nodup.mem_erase_iff.mp hactive).1
  | disconnect =>
    unfold State.disconnect at hactive
    dsimp only at hactive
    split at hactive <;> cases hactive
  | _ =>
    left
    simpa [setLoop, setDrop, setSetup, modifyConsumer, State.channelOpened, State.consumeOk,
      tryAgain, closePool, State.connectionLost] using htag

/-- What the setups of a consumer have tracked, in order. -/
def trackedBy (log : List Tracked) (consumer : Nat) : List Tracked :=
  log.filter (·.consumer = consumer)

structure Indexed (w : State × List Tracked) : Prop where
  consumed : ∀ {k channel consumerTag : Nat} {setup : Setup}, w.1.setups[k]? = some setup →
    setup.stage = .consumed channel consumerTag →
    ⟨setup.consumer, channel, consumerTag⟩ ∈ w.1.held
  tracked : ∀ {e : Tracked}, e ∈ w.2 → e ∈ w.1.held
  unshared : ∀ {e e' : Tracked}, e ∈ w.1.held → e' ∈ w.1.held → e.consumerTag = e'.consumerTag →
    e.consumer = e'.consumer
  obtained : ∀ {e : Tracked}, e ∈ w.2 → e.consumer ∈ w.1.activeConsumers →
    w.1.consumersByTag.get? e.consumerTag = some e.consumer
  current : ∀ {consumer : Nat} {c : Consumer}, w.1.consumers[consumer]? = some c →
    c.channel = (trackedBy w.2 consumer).getLast?.map (·.channel) ∧
    c.consumerTag = (trackedBy w.2 consumer).getLast?.map (·.consumerTag)

theorem indexed_start : Indexed (start, []) where
  consumed := by
    intro k channel consumerTag setup hk
    cases hk
  tracked := nofun
  unshared := nofun
  obtained := nofun
  current := by
    intro consumer c hc
    cases hc

theorem Owned.held (h : Owned s) {e : Tracked} (he : e ∈ s.held) :
    e.consumer < s.consumers.length := by
  obtain ⟨consume, hmem, rfl⟩ := List.mem_map.mp he
  obtain ⟨i, hi⟩ := List.mem_iff_getElem?.mp hmem
  obtain ⟨c, hc, howner⟩ := h.consumes hi
  rw [Consume.held, ← howner]
  exact h.owners hc

/-- Two setups that hold one tag belong to one consumer, when the broker gives no consumer the tag
of another. -/
theorem Indexed.step_unshared {log : List Tracked} (h : Indexed (s, log))
    (hok : TagsUnshared s event) (hsteps : Steps s event t) {e e' : Tracked} (he : e ∈ t.held)
    (he' : e' ∈ t.held) (htag : e.consumerTag = e'.consumerTag) : e.consumer = e'.consumer := by
  have hfresh : ∀ {f f' : Tracked} {k setup}, event = .consumeOk k f.consumerTag →
      s.setups[k]? = some setup → setup.consumer = f.consumer → f' ∈ s.held →
      f.consumerTag = f'.consumerTag → f'.consumer = f.consumer := by
    intro f f' k setup hevent hk hconsumer hf' hff'
    obtain ⟨consume, hmem, rfl⟩ := List.mem_map.mp hf'
    subst hevent
    exact (hok setup hk consume hmem hff'.symm).trans hconsumer
  cases hsteps.held_cases he with
  | kept he =>
    cases hsteps.held_cases he' with
    | kept he' => exact h.unshared he he' htag
    | begins hevent hk _ hconsumer => exact hfresh hevent hk hconsumer he htag.symm
  | begins hevent hk _ hconsumer =>
    cases hsteps.held_cases he' with
    | kept he' => exact (hfresh hevent hk hconsumer he' htag).symm
    | begins hevent' hk' _ hconsumer' =>
      have heq := hevent.symm.trans hevent'
      rw [Event.consumeOk.injEq] at heq
      rw [heq.1] at hk
      cases hk.symm.trans hk'
      exact hconsumer.symm.trans hconsumer'

theorem Indexed.step_current {log : List Tracked} (h : Indexed (s, log))
    (howned : Owned s) (hsteps : Steps s event t) {c : Consumer}
    (hc : t.consumers[consumer]? = some c) :
    c.channel = (trackedBy (log ++ tracks s event) consumer).getLast?.map (·.channel) ∧
    c.consumerTag =
      (trackedBy (log ++ tracks s event) consumer).getLast?.map (·.consumerTag) := by
  rw [trackedBy, List.filter_append]
  cases hsteps.consumer_cases hc with
  | kept hc hkeeps hnone =>
    have hnew : (tracks s event).filter (·.consumer = consumer) = [] := by
      refine List.filter_eq_nil_iff.mpr fun e he => ?_
      rw [decide_eq_true_eq]
      exact hnone e he
    rw [hnew, List.append_nil, hkeeps.channel, hkeeps.consumerTag]
    exact h.current hc
  | @tracked _ e _ htracks hconsumer hkeeps =>
    have hnew : (tracks s event).filter (·.consumer = consumer) = [e] := by
      rw [htracks]
      exact List.filter_cons_of_pos (decide_eq_true hconsumer)
    rw [hnew, List.getLast?_concat, hkeeps.channel, hkeeps.consumerTag]
    exact ⟨rfl, rfl⟩
  | counted hc _ hchannel htag _ htracks =>
    rw [htracks, List.filter_nil, List.append_nil, hchannel, htag]
    exact h.current hc
  | begins hnew htracks hkeeps =>
    -- nothing was tracked for a consumer that was not there
    have hnone : log.filter (·.consumer = consumer) = [] := by
      refine List.filter_eq_nil_iff.mpr fun e he => ?_
      have hlt := howned.held (h.tracked he)
      rw [decide_eq_true_eq]
      omega
    rw [hnone, htracks, hkeeps.channel, hkeeps.consumerTag]
    exact ⟨rfl, rfl⟩

theorem Indexed.step {log : List Tracked} (h : Indexed (s, log)) (hreg : Registered s)
    (howned : Owned s) (hok : TagsUnshared s event) (hsteps : Steps s event t) :
    Indexed (t, log ++ tracks s event) where
  consumed := by
    intro k channel consumerTag setup hk hstage
    rcases hsteps.consumed hk hstage with hk | hheld
    · exact hsteps.held_mono (h.consumed hk hstage)
    · exact hheld
  tracked := by
    intro e he
    apply hsteps.held_mono
    rcases List.mem_append.mp he with he | he
    · exact h.tracked he
    · obtain ⟨k, setup, _, hk, hstage, hconsumer, _⟩ := tracks_mem he
      have hheld := h.consumed hk hstage
      rw [hconsumer] at hheld
      exact hheld
  unshared := h.step_unshared hok hsteps
  obtained := by
    intro e he hactive
    rcases List.mem_append.mp he with he | he
    · rcases hsteps.active hactive with hbefore | ⟨hnew, _⟩
      · rcases hsteps.tag_kept hreg (h.obtained he hbefore) hactive with hkept | ⟨e', he', htag⟩
        · exact hkept
        · -- the tag is tracked again, by the consumer that has it
          obtain ⟨k, setup, _, hk, hstage, hconsumer, _⟩ := tracks_mem he'
          have hheld := h.consumed hk hstage
          rw [hconsumer] at hheld
          have hsame := h.unshared hheld (h.tracked he) htag
          rw [← htag, ← hsame]
          exact hsteps.tracked_tag he'
      · have hlt := howned.held (h.tracked he)
        omega
    · exact hsteps.tracked_tag he
  current := h.step_current howned hsteps

/-- A run of the consumers, with every tag that they obtained. -/
abbrev Tracking := Reach (logged trackedStep) (fun w event => TagsUnshared w.1 event) (start, [])

theorem trackedStep_eq_some {w w' : State × List Tracked} (h : logged trackedStep w event = some w') :
    ∃ t, step w.1 event = some t ∧ w' = (t, w.2 ++ tracks w.1 event) := by
  obtain ⟨t, out, hs, rfl⟩ := logged_eq_some h
  obtain ⟨_, ht, heq⟩ := Option.map_eq_some_iff.mp hs
  cases heq
  exact ⟨_, ht, rfl⟩

theorem reach_of_tracking {w : State × List Tracked} (hr : Tracking w) :
    Reach step anyStep start w.1 := by
  induction hr with
  | refl => exact .refl
  | tail _ _ hs ih =>
    obtain ⟨t, ht, rfl⟩ := trackedStep_eq_some hs
    exact ih.tail trivial ht

theorem indexed {w : State × List Tracked} (hr : Tracking w) : Indexed w := by
  induction hr with
  | refl => exact indexed_start
  | tail hr hok hs ih =>
    obtain ⟨t, ht, rfl⟩ := trackedStep_eq_some hs
    have hreach := reach_of_tracking hr
    exact ih.step (registered hreach) (owned hreach) hok (step_cases ht)

/-- The index of the tags agrees with the consumers that are registered. -/
structure TagIndex (queueName : Nat → QueueName) (s : State) (log : List Tracked) : Prop where
  registered : ∀ consumerTag consumer, s.consumersByTag.get? consumerTag = some consumer →
    consumer ∈ s.activeConsumers
  obtained : ∀ e ∈ log, e.consumer ∈ s.activeConsumers →
    s.consumersByTag.get? e.consumerTag = some e.consumer
  findQueueNameByTag : ∀ consumerTag, ∃ name,
    findQueueNameByTag queueName s consumerTag = .ok name
  moveToDeadLetter : ∀ e ∈ log, e.consumer ∈ s.activeConsumers → ∀ routingKey,
    deadLetterQueue queueName s (some e.consumerTag) routingKey =
      .ok ((queueName e.consumer).name ++ "_dlq")
  /-- Any tag that the consumer has had cancels the newest one, on its channel. -/
  unsubscribe : ∀ e ∈ log, e.consumer ∈ s.activeConsumers → ∀ t,
    step s (.unsubscribe e.consumerTag) = some t →
    ∃ current, (trackedBy log e.consumer).getLast? = some current ∧
      t.unsubscribes = s.unsubscribes ++
        [⟨e.consumer, .cancelling current.channel current.consumerTag⟩]
  outlives : ∀ consumer, consumer ∉ s.activeConsumers → ∀ consumerTag,
    s.consumersByTag.get? consumerTag ≠ some consumer

theorem Indexed.unsubscribe {w : State × List Tracked} (h : Indexed w) {e : Tracked} (he : e ∈ w.2)
    (hactive : e.consumer ∈ w.1.activeConsumers)
    (hs : ConsumerManager.step w.1 (.unsubscribe e.consumerTag) = some t) :
    ∃ current, (trackedBy w.2 e.consumer).getLast? = some current ∧
      t.unsubscribes = w.1.unsubscribes ++
        [⟨e.consumer, .cancelling current.channel current.consumerTag⟩] := by
  have hmem : e ∈ trackedBy w.2 e.consumer := List.mem_filter.mpr ⟨he, decide_eq_true rfl⟩
  have hlast := List.getLast?_eq_some_getLast (List.ne_nil_of_mem hmem)
  refine ⟨_, hlast, ?_⟩
  unfold ConsumerManager.step at hs
  split at hs
  · cases hs
  dsimp only at hs
  rw [h.obtained he hactive] at hs
  dsimp only at hs
  rw [if_pos hactive] at hs
  obtain ⟨c, hc, rfl⟩ := Option.map_eq_some_iff.mp hs
  obtain ⟨hchannel, hconsumerTag⟩ := h.current hc
  rw [hlast] at hchannel hconsumerTag
  rw [State.unsubscribe, hchannel, hconsumerTag]
  rfl

/-- The tags of the consumers are never shared by two of them. Then a tag that a consumer obtained
is its own for as long as the consumer is registered, and no tag outlives its consumer. -/
theorem tag_index (queueName : Nat → QueueName) {w : State × List Tracked} (hr : Tracking w) :
    TagIndex queueName w.1 w.2 := by
  have hregistered := tags_registered (reach_of_tracking hr)
  have h := indexed hr
  refine ⟨hregistered, fun e he hactive => h.obtained he hactive,
    hregistered.findQueueNameByTag, ?_, ?_, ?_⟩
  · intro e he hactive routingKey
    apply hregistered.deadLetterQueue
    exact h.obtained he hactive
  · intro e he hactive t hs
    exact h.unsubscribe he hactive hs
  · intro consumer hgone consumerTag htag
    exact hgone (hregistered _ _ htag)

/-- The broker cancels a consumer that recovers on the channel it has, under another tag. Both tags
are its own. -/
theorem recovered_under_new_tag : ∃ w, Tracking w ∧ w.2 = [⟨0, 0, 7⟩, ⟨0, 0, 8⟩] ∧
    0 ∈ w.1.activeConsumers ∧ TagIndex (fun _ => ⟨"orders", by decide⟩) w.1 w.2 := by
  have hrun : (run (logged trackedStep) (fun w event => TagsUnshared w.1 event) (start, [])
      [.poolInstalled, .recreateAll, .recreated, .subscribe false, .channelOpened 0,
        .setupContinues 0, .prefetched 0, .consumeOk 0 7, .setupCompletes 0, .brokerCancels 0,
        .loopWakes 0, .setupContinues 1, .prefetched 1, .consumeOk 1 8, .setupCompletes 1]).any
      (fun w => decide (w.2 = [⟨0, 0, 7⟩, ⟨0, 0, 8⟩] ∧ 0 ∈ w.1.activeConsumers)) := by
    decide +kernel
  obtain ⟨w, hw, h⟩ := (Option.any_eq_true _ _).mp hrun
  obtain ⟨hlog, hactive⟩ := of_decide_eq_true h
  have hr : Tracking w := reach_of_run hw
  exact ⟨w, hr, hlog, hactive, tag_index _ hr⟩

end ConsumerManager
end RabbitMQ
