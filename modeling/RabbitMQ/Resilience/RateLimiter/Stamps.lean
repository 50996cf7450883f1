import RabbitMQ.Resilience.RateLimiter.Isolation

/-! What the store of a strategy holds was put there by calls: a bucket was last refilled by one, a
counter counts in the window of one, and the entries of a log are checks. A sweep leaves what the
calls of the last two windows put there. -/

namespace RabbitMQ

open RateLimiter

namespace RateLimiter

/-- The key that a call asks the strategy about. -/
def Operation.asks? : Operation → Option String
  | .checkRateLimit key _ | .getStatus key | .getRemainingTokens key => some key
  | .blockKey _ _ | .reset _ | .cleanup => none

def Operation.blocks? : Operation → Option String
  | .blockKey key _ => some key
  | .checkRateLimit _ _ | .reset _ | .getStatus _ | .getRemainingTokens _ | .cleanup => none

/-- The call may have left something that a sweep at `swept` keeps, or it came later. -/
def Call.recent (windowMs swept : ℚ) (call : Call) : Bool :=
  match call.operation with
  | .blockKey _ duration => swept < call.now + duration.getD windowMs ∨ swept ≤ call.now
  | .checkRateLimit _ _ | .reset _ | .getStatus _ | .getRemainingTokens _ | .cleanup =>
    swept - 2 * |windowMs| ≤ call.now

/-- The entry that a check leaves in the log of a key. -/
def Call.entry? (key : String) (call : Call) : Option LogEntry :=
  match call.operation with
  | .checkRateLimit k cost => if k = key then some ⟨call.now, cost⟩ else none
  | .blockKey _ _ | .reset _ | .getStatus _ | .getRemainingTokens _ | .cleanup => none

/-- One of the calls asked the strategy about the key, at an instant of which something holds. -/
def AskedAt (calls : List Call) (key : String) (P : ℚ → Prop) : Prop :=
  ∃ call ∈ calls, call.operation.asks? = some key ∧ P call.now

variable {calls calls' : List Call} {key : String} {P Q : ℚ → Prop} {now cost windowMs : ℚ}

theorem AskedAt.mono (h : AskedAt calls key P) (hsub : calls ⊆ calls') : AskedAt calls' key P := by
  obtain ⟨call, hcall, hasks⟩ := h
  exact ⟨call, hsub hcall, hasks⟩

theorem AskedAt.imp (h : AskedAt calls key P) (himp : ∀ now, P now → Q now) :
    AskedAt calls key Q := by
  obtain ⟨call, hcall, hasks, hP⟩ := h
  exact ⟨call, hcall, hasks, himp _ hP⟩

/-- The calls that a sweep at `now` remembers. -/
theorem AskedAt.recent (h : AskedAt calls key P) (hrecent : ∀ t, P t → now - 2 * |windowMs| ≤ t) :
    AskedAt (calls.filter (Call.recent windowMs now)) key P := by
  obtain ⟨⟨t, operation⟩, hcall, hasks, hP⟩ := h
  refine ⟨_, List.mem_filter.mpr ⟨hcall, ?_⟩, hasks, hP⟩
  cases operation with
  | checkRateLimit | getStatus | getRemainingTokens => exact decide_eq_true (hrecent t hP)
  | blockKey | reset | cleanup => cases hasks

end RateLimiter

/-! ## What the stores hold was put there by calls -/

namespace TokenBucketStrategy

/-- A bucket was last refilled by a call. -/
def Stamped (s : TokenBucketStrategy) (calls : List Call) : Prop :=
  ∀ key bucket, s.buckets.get? key = some bucket → AskedAt calls key (· = bucket.lastRefill)

variable {s : TokenBucketStrategy} {calls : List Call} {key : String} {now cost : ℚ}

theorem Stamped.set (h : Stamped s calls) {bucket : Bucket}
    (hasked : AskedAt calls key (· = bucket.lastRefill)) :
    Stamped { s with buckets := s.buckets.set key bucket } calls :=
  OrderedMap.forall_set h hasked

theorem Stamped.bucket (h : Stamped s calls) (hasked : AskedAt calls key (· = now)) :
    AskedAt calls key (· = (s.bucket key now).1.lastRefill) ∧
      Stamped (s.bucket key now).2 calls := by
  unfold TokenBucketStrategy.bucket
  split
  · exact ⟨hasked, h.set hasked⟩
  · next bucket hget =>
    dsimp only
    split
    · exact ⟨hasked, h.set hasked⟩
    · exact ⟨h key bucket hget, h⟩

theorem Stamped.check (h : Stamped s calls) (hasked : AskedAt calls key (· = now)) (cost : ℚ) :
    Stamped (s.check key cost now).2 calls := by
  obtain ⟨hlast, hbucket⟩ := h.bucket hasked
  unfold TokenBucketStrategy.check
  dsimp only
  split
  · exact hbucket
  · exact hbucket.set hlast

theorem Stamped.reset (h : Stamped s calls) (key : String) : Stamped (s.reset key) calls :=
  OrderedMap.forall_erase h key

/-- A sweep keeps the buckets that were refilled less than two windows ago. -/
theorem Stamped.cleanup (h : Stamped s calls) (now : ℚ) :
    Stamped (s.cleanup now) (calls.filter (Call.recent s.windowMs now)) := by
  intro k b hget
  obtain ⟨hget, hkept⟩ := OrderedMap.get?_filter.mp hget
  have hlast : now - b.lastRefill ≤ s.windowMs * 2 := by simpa using hkept
  refine (h k b hget).recent fun t ht => ?_
  have hwindow := le_abs_self s.windowMs
  rw [ht]
  linarith

end TokenBucketStrategy

namespace FixedWindowStrategy

/-- A counter counts in the window of a call. -/
def Stamped (s : FixedWindowStrategy) (calls : List Call) : Prop :=
  ∀ key counter, s.counters.get? key = some counter →
    AskedAt calls key fun t => windowStart s.windowMs t = counter.windowStart

variable {s : FixedWindowStrategy} {calls : List Call} {key : String} {now cost windowMs t : ℚ}

theorem Stamped.set (h : Stamped s calls) (hasked : AskedAt calls key (· = now)) (count : ℚ) :
    Stamped { s with
      counters := s.counters.set key ⟨count, windowStart s.windowMs now⟩ } calls :=
  OrderedMap.forall_set h (hasked.imp fun _ ht => ht ▸ rfl)

theorem Stamped.check (h : Stamped s calls) (hasked : AskedAt calls key (· = now)) (cost : ℚ) :
    Stamped (s.check key cost now).2 calls := by
  rw [FixedWindowStrategy.check, rolled_over]
  split
  · dsimp only
    split
    · exact h.set hasked _
    · exact h
  · exact h.set hasked _

theorem Stamped.reset (h : Stamped s calls) (key : String) : Stamped (s.reset key) calls :=
  OrderedMap.forall_erase h key

/-- Two instants of one window are less than a window apart. -/
theorem sub_le_of_windowStart (hwindow : windowMs ≠ 0)
    (heq : windowStart windowMs t = windowStart windowMs now) : now - |windowMs| ≤ t := by
  have hfloor : ⌊now / windowMs⌋ = ⌊t / windowMs⌋ := by
    have hmul := mul_right_cancel₀ hwindow heq
    exact_mod_cast hmul.symm
  have hone := Int.abs_sub_lt_one_of_floor_eq_floor hfloor
  rw [← sub_div, abs_div, div_lt_one (abs_pos.mpr hwindow)] at hone
  have habs := le_abs_self (now - t)
  linarith

/-- A sweep keeps the counters of the window that it is in. -/
theorem Stamped.cleanup (h : Stamped s calls) (hwindow : s.windowMs ≠ 0) (now : ℚ) :
    Stamped (s.cleanup now) (calls.filter (Call.recent s.windowMs now)) := by
  intro k c hget
  obtain ⟨hget, hkept⟩ := OrderedMap.get?_filter.mp hget
  have hcurrent : c.windowStart = windowStart s.windowMs now := of_decide_eq_true hkept
  refine (h k c hget).recent fun t ht => ?_
  have hle := sub_le_of_windowStart hwindow (ht.trans hcurrent)
  have hnonneg := abs_nonneg s.windowMs
  linarith

end FixedWindowStrategy

namespace WindowLogStrategy

/-- A log is of a key that was asked about, and its entries are the checks of the key, in order. -/
def Stamped (s : WindowLogStrategy) (calls : List RateLimiter.Call) : Prop :=
  ∀ key windowData, s.windows.get? key = some windowData →
    AskedAt calls key (fun _ => True) ∧
      windowData.entries.Sublist (calls.filterMap (RateLimiter.Call.entry? key))

variable {s : WindowLogStrategy} {calls : List RateLimiter.Call} {key : String}
  {now cost windowMs : ℚ}

theorem Stamped.mono (h : Stamped s calls) {calls' : List RateLimiter.Call}
    (hsub : calls.Sublist calls') : Stamped s calls' := by
  intro k windowData hget
  obtain ⟨hasked, hentries⟩ := h k windowData hget
  exact ⟨hasked.mono hsub.subset, hentries.trans (hsub.filterMap _)⟩

theorem entries_evict (windowMs now : ℚ) (entries : List LogEntry) (total : ℚ) :
    (evict windowMs now entries total).entries = entries.dropWhile (Expired windowMs now) := by
  induction entries generalizing total with
  | nil => rfl
  | cons entry entries ih =>
    rw [evict]
    split
    · next hexpired => rw [ih, dropWhile_of_expired hexpired]
    · next hlive => rw [dropWhile_of_live hlive]

theorem Stamped.set (h : Stamped s calls) {windowData : WindowData}
    (hasked : AskedAt calls key (fun _ => True))
    (hentries : windowData.entries.Sublist (calls.filterMap (RateLimiter.Call.entry? key))) :
    Stamped { s with windows := s.windows.set key windowData } calls :=
  OrderedMap.forall_set h ⟨hasked, hentries⟩

theorem Stamped.erase (h : Stamped s calls) (key : String) :
    Stamped { s with windows := s.windows.erase key } calls :=
  OrderedMap.forall_erase h key

/-- The window that `occupy` works on. -/
theorem Stamped.evicted (h : Stamped s calls) (key : String) (now : ℚ) :
    (s.evictExpired (s.windowFor key) now).entries.Sublist
      (calls.filterMap (RateLimiter.Call.entry? key)) := by
  rw [evictExpired, entries_evict]
  refine (List.dropWhile_sublist _).trans ?_
  cases hget : s.windows.get? key with
  | none =>
    rw [windowFor, hget]
    exact List.nil_sublist _
  | some windowData =>
    rw [windowFor, hget]
    exact (h key windowData hget).2

theorem Stamped.occupy (h : Stamped s calls) (key : String) (cost now : ℚ) :
    Stamped (s.occupy key cost now).2 (calls ++ [⟨now, .checkRateLimit key cost⟩]) := by
  have hevicted := h.evicted key now
  have hlater := h.mono (List.sublist_append_left calls [⟨now, .checkRateLimit key cost⟩])
  have hasked : AskedAt (calls ++ [⟨now, .checkRateLimit key cost⟩]) key fun _ => True :=
    ⟨_, List.mem_append_right _ List.mem_cons_self, rfl, trivial⟩
  have hlast : ([⟨now, .checkRateLimit key cost⟩] : List RateLimiter.Call).filterMap
      (RateLimiter.Call.entry? key) = [⟨now, cost⟩] := by
    simp [RateLimiter.Call.entry?]
  rw [WindowLogStrategy.occupy]
  split
  · refine hlater.set hasked ?_
    rw [List.filterMap_append]
    exact hevicted.trans (List.sublist_append_left _ _)
  · refine hlater.set hasked ?_
    rw [List.filterMap_append, hlast]
    exact hevicted.append (List.Sublist.refl _)

theorem Stamped.remaining (h : Stamped s calls) (key : String) (now : ℚ) :
    Stamped (s.remaining key now).2 calls := by
  rw [WindowLogStrategy.remaining]
  split
  · exact h
  · next windowData hget =>
    have hevicted := h.evicted key now
    rw [windowFor, hget] at hevicted
    exact h.set (h key windowData hget).1 hevicted

/-- The entries that a sweep leaves are of the window before it. -/
theorem live_of_sorted (windowMs now : ℚ) {entries : List LogEntry}
    (hsorted : entries.Pairwise fun e f => e.timestamp ≤ f.timestamp) :
    ∀ e ∈ entries.dropWhile (Expired windowMs now), now - e.timestamp ≤ windowMs := by
  induction entries with
  | nil => exact fun e he => absurd he List.not_mem_nil
  | cons entry entries ih =>
    obtain ⟨hfirst, hsorted⟩ := List.pairwise_cons.mp hsorted
    by_cases hexpired : Expired windowMs now entry
    · rw [dropWhile_of_expired hexpired]
      exact ih hsorted
    · rw [dropWhile_of_live hexpired]
      have hlive : now - entry.timestamp ≤ windowMs := not_lt.mp hexpired
      intro e he
      rcases List.mem_cons.mp he with rfl | he
      · exact hlive
      · have hle := hfirst e he
        linarith

theorem filterMap_sublist {α β : Type*} {f g : α → Option β} {l : List α}
    (h : ∀ a b, f a = some b → g a = some b) : (l.filterMap f).Sublist (l.filterMap g) := by
  induction l with
  | nil => exact List.Sublist.refl _
  | cons a l ih =>
    cases hf : f a with
    | none =>
      rw [List.filterMap_cons_none hf]
      cases hg : g a with
      | none => rwa [List.filterMap_cons_none hg]
      | some b => exact (List.filterMap_cons_some hg).symm ▸ ih.cons b
    | some b =>
      rw [List.filterMap_cons_some hf, List.filterMap_cons_some (h a b hf)]
      exact ih.cons_cons b

theorem entry?_eq_some {call : RateLimiter.Call} {entry : LogEntry}
    (h : call.entry? key = some entry) :
    call = ⟨entry.timestamp, .checkRateLimit key entry.cost⟩ := by
  obtain ⟨t, operation⟩ := call
  cases operation with
  | checkRateLimit k cost =>
    rw [RateLimiter.Call.entry?] at h
    dsimp only at h
    split at h
    · next heq =>
      cases h
      rw [heq]
    · cases h
  | blockKey | reset | getStatus | getRemainingTokens | cleanup => cases h

/-- The checks of a key that a sweep remembers. -/
theorem entries_recent {entries : List LogEntry}
    (hentries : entries.Sublist (calls.filterMap (RateLimiter.Call.entry? key)))
    (hlive : ∀ e ∈ entries, now - e.timestamp ≤ windowMs) :
    entries.Sublist ((calls.filter (RateLimiter.Call.recent windowMs now)).filterMap
      (RateLimiter.Call.entry? key)) := by
  have hfilter := hentries.filter fun e => decide (now - e.timestamp ≤ windowMs)
  rw [List.filter_eq_self.mpr fun e he => decide_eq_true (hlive e he), List.filter_filterMap]
    at hfilter
  rw [List.filterMap_filter]
  refine hfilter.trans (filterMap_sublist fun call e he => ?_)
  obtain ⟨hentry, hin⟩ := Option.filter_eq_some_iff.mp he
  have hin : now - e.timestamp ≤ windowMs := of_decide_eq_true hin
  have hrecent : call.recent windowMs now = true := by
    rw [entry?_eq_some hentry]
    have hwindow := le_abs_self windowMs
    have hnonneg := abs_nonneg windowMs
    exact decide_eq_true (by linarith)
  rw [if_pos hrecent]
  exact hentry

/-- A sweep keeps the logs that have an entry left. -/
theorem cleanup_get? {windowData : WindowData}
    (hget : (s.cleanup now).windows.get? key = some windowData) :
    windowData.entries ≠ [] ∧ ∃ before, s.windows.get? key = some before ∧
      windowData.entries = before.entries.dropWhile (Expired s.windowMs now) := by
  rw [(sameAt_cleanup s now).windows, sweep] at hget
  split at hget
  · next hnone => cases hnone.symm.trans hget
  · next before hbefore =>
    dsimp only at hget
    split at hget
    · rw [OrderedMap.get?_erase_self] at hget
      cases hget
    · next hne =>
      rw [OrderedMap.get?_set_self] at hget
      cases hget
      exact ⟨hne, before, hbefore, entries_evict _ _ _ _⟩

theorem Stamped.cleanup (h : Stamped s calls)
    (hsorted : calls.Pairwise fun call call' => call.now ≤ call'.now) (now : ℚ) :
    Stamped (s.cleanup now) (calls.filter (RateLimiter.Call.recent s.windowMs now)) := by
  intro k windowData hget
  obtain ⟨hne, before, hbefore, heq⟩ := cleanup_get? hget
  have hchecks := (h k before hbefore).2
  have hstamps : (calls.filterMap (RateLimiter.Call.entry? k)).Pairwise
      fun e f => e.timestamp ≤ f.timestamp := by
    refine hsorted.filterMap _ fun call call' hle e he f hf => ?_
    rw [entry?_eq_some he, entry?_eq_some hf] at hle
    exact hle
  have hlive := live_of_sorted s.windowMs now (hstamps.sublist hchecks)
  have hentries := entries_recent ((List.dropWhile_sublist _).trans hchecks) hlive
  rw [← heq] at hentries
  refine ⟨?_, hentries⟩
  obtain ⟨e, he⟩ := List.exists_mem_of_ne_nil _ hne
  obtain ⟨call, hcall, hentry⟩ := List.mem_filterMap.mp (hentries.subset he)
  refine ⟨call, hcall, ?_, trivial⟩
  rw [entry?_eq_some hentry]
  rfl

end WindowLogStrategy

end RabbitMQ
