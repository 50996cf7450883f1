import Mathlib.Algebra.BigOperators.Group.List.Basic
import Mathlib.Algebra.Order.Ring.Rat
import Mathlib.Tactic.Linarith
import RabbitMQ.Lib.Meter

/-! The strategies whose whole state is a log of entries for each key with a running total. Expired
entries are evicted from the front. -/

namespace RabbitMQ

open Meter

structure LogEntry where
  timestamp : ℚ
  cost : ℚ
  deriving DecidableEq

structure WindowData where
  entries : List LogEntry
  total : ℚ
  deriving DecidableEq

structure WindowLogStrategy where
  limit : ℚ
  windowMs : ℚ
  windows : OrderedMap String WindowData

namespace WindowLogStrategy

def new (limit windowMs : ℚ) : WindowLogStrategy := ⟨limit, windowMs, .empty⟩

def capacity (s : WindowLogStrategy) : ℚ := s.limit

/-- The entry has left the window. -/
def Expired (windowMs now : ℚ) (entry : LogEntry) : Prop := now - entry.timestamp > windowMs

instance (windowMs now : ℚ) : DecidablePred (Expired windowMs now) := fun entry =>
  inferInstanceAs (Decidable (now - entry.timestamp > windowMs))

/-- The loop of `#evictExpired`. -/
def evict (windowMs now : ℚ) : List LogEntry → ℚ → WindowData
  | [], total => ⟨[], total⟩
  | entry :: entries, total =>
    if Expired windowMs now entry then evict windowMs now entries (total - entry.cost)
    else ⟨entry :: entries, total⟩

def evictExpired (s : WindowLogStrategy) (windowData : WindowData) (now : ℚ) : WindowData :=
  evict s.windowMs now windowData.entries windowData.total

/-- `#windowFor`. A new window is stored. -/
def windowFor (s : WindowLogStrategy) (key : String) : WindowData :=
  (s.windows.get? key).getD ⟨[], 0⟩

/-- Admits the entry and returns the occupancy before it joined, or `none`. -/
def occupy (s : WindowLogStrategy) (key : String) (cost now : ℚ) : Option ℚ × WindowLogStrategy :=
  let windowData := s.evictExpired (s.windowFor key) now
  if windowData.total + cost > s.limit then
    (none, { s with windows := s.windows.set key windowData })
  else
    (some windowData.total, { s with
      windows := s.windows.set key
        ⟨windowData.entries ++ [⟨now, cost⟩], windowData.total + cost⟩ })

def remaining (s : WindowLogStrategy) (key : String) (now : ℚ) : ℚ × WindowLogStrategy :=
  match s.windows.get? key with
  | none => (s.limit, s)
  | some windowData =>
    let windowData := s.evictExpired windowData now
    (s.limit - windowData.total, { s with windows := s.windows.set key windowData })

/-- A turn of the loop of `cleanup`: the log is evicted, and dropped when it is empty. -/
def sweep (now : ℚ) (s : WindowLogStrategy) (key : String) : WindowLogStrategy :=
  match s.windows.get? key with
  | none => s
  | some windowData =>
    let windowData := s.evictExpired windowData now
    { s with
      windows :=
        if windowData.entries = [] then s.windows.erase key else s.windows.set key windowData }

def cleanup (s : WindowLogStrategy) (now : ℚ) : WindowLogStrategy :=
  s.windows.keys.foldl (sweep now) s

def reset (s : WindowLogStrategy) (key : String) : WindowLogStrategy :=
  { s with windows := s.windows.erase key }

/-- The entries of a log that are still in the window at an instant. -/
def level (windowMs : ℚ) (windowData : WindowData) (now : ℚ) : List LogEntry :=
  windowData.entries.dropWhile (Expired windowMs now)

def sum (entries : List LogEntry) : ℚ := (entries.map (·.cost)).sum

/-- The running totals are right. -/
def Kept (s : WindowLogStrategy) : Prop :=
  ∀ key windowData, s.windows.get? key = some windowData →
    windowData.total = sum windowData.entries

abbrev live (s : WindowLogStrategy) (key : String) (now : ℚ) : List LogEntry :=
  reading (level s.windowMs) [] s.windows key now

variable {s s' : WindowLogStrategy} {t now : ℚ} {key : String} {cost : ℚ}

theorem dropWhile_of_expired {windowMs : ℚ} {entry : LogEntry} (h : Expired windowMs now entry)
    (entries : List LogEntry) : (entry :: entries).dropWhile (Expired windowMs now) =
      entries.dropWhile (Expired windowMs now) :=
  List.dropWhile_cons_of_pos (decide_eq_true h)

theorem dropWhile_of_live {windowMs : ℚ} {entry : LogEntry} (h : ¬ Expired windowMs now entry)
    (entries : List LogEntry) :
    (entry :: entries).dropWhile (Expired windowMs now) = entry :: entries :=
  List.dropWhile_cons_of_neg (by simpa using h)

theorem evict_eq (windowMs now : ℚ) (entries : List LogEntry) {total : ℚ}
    (htotal : total = sum entries) : evict windowMs now entries total =
      ⟨entries.dropWhile (Expired windowMs now),
        sum (entries.dropWhile (Expired windowMs now))⟩ := by
  induction entries generalizing total with
  | nil => rw [evict, htotal, List.dropWhile_nil]
  | cons entry entries ih =>
    rw [evict]
    split
    · next hexpired =>
      have htotal' : total - entry.cost = sum entries := by
        rw [htotal, sum, sum, List.map_cons, List.sum_cons, add_sub_cancel_left]
      rw [ih htotal', dropWhile_of_expired hexpired]
    · next hlive => rw [dropWhile_of_live hlive, htotal]

theorem Expired.later {windowMs : ℚ} {entry : LogEntry} (h : Expired windowMs t entry)
    (hle : t ≤ now) : Expired windowMs now entry :=
  lt_of_lt_of_le h (sub_le_sub_right hle _)

theorem dropWhile_dropWhile {windowMs : ℚ} (hle : t ≤ now) (entries : List LogEntry) :
    (entries.dropWhile (Expired windowMs t)).dropWhile (Expired windowMs now) =
      entries.dropWhile (Expired windowMs now) := by
  induction entries with
  | nil => rfl
  | cons entry entries ih =>
    by_cases hexpired : Expired windowMs t entry
    · rw [dropWhile_of_expired hexpired, ih, dropWhile_of_expired (hexpired.later hle)]
    · rw [dropWhile_of_live hexpired]

/-- The window that `occupy` works on. -/
theorem Kept.evicted (h : Kept s) (key : String) (now : ℚ) :
    s.evictExpired (s.windowFor key) now = ⟨s.live key now, sum (s.live key now)⟩ := by
  cases hget : s.windows.get? key with
  | none =>
    rw [live, reading_of_get?_none hget, windowFor, hget]
    rfl
  | some windowData =>
    rw [live, reading_of_get? hget, windowFor, hget]
    exact evict_eq _ _ _ (h key windowData hget)

theorem agree_evicted (s : WindowLogStrategy) (key : String) (now total : ℚ) :
    Agree (level s.windowMs) [] now (s.windows.set key ⟨s.live key now, total⟩) s.windows := by
  refine agree_set fun later hlater => ?_
  cases hget : s.windows.get? key with
  | none =>
    rw [live, reading_of_get?_none hget, reading_of_get?_none hget]
    rfl
  | some windowData =>
    rw [live, reading_of_get? hget, reading_of_get? hget]
    exact dropWhile_dropWhile hlater _

theorem Kept.set (h : Kept s) (key : String) (entries : List LogEntry) :
    Kept { s with windows := s.windows.set key ⟨entries, sum entries⟩ } := by
  intro j windowData hget
  dsimp only at hget
  rw [OrderedMap.get?_set] at hget
  split at hget
  · cases hget
    rfl
  · exact h j windowData hget

theorem Kept.erase (h : Kept s) (key : String) :
    Kept { s with windows := s.windows.erase key } := by
  intro j windowData hget
  dsimp only at hget
  rw [OrderedMap.get?_erase] at hget
  split at hget
  · cases hget
  · exact h j windowData hget

theorem kept_new (limit windowMs : ℚ) : Kept (new limit windowMs) := nofun

/-! ## What the operations read and write -/

theorem sum_append (entries : List LogEntry) (entry : LogEntry) :
    sum (entries ++ [entry]) = sum entries + entry.cost := by
  simp [sum]

theorem Kept.occupy_eq (h : Kept s) (key : String) (cost now : ℚ) : s.occupy key cost now =
    if sum (s.live key now) + cost ≤ s.limit then
      (some (sum (s.live key now)), { s with
        windows := s.windows.set key ⟨s.live key now ++ [⟨now, cost⟩],
          sum (s.live key now ++ [⟨now, cost⟩])⟩ })
    else
      (none, { s with
        windows := s.windows.set key ⟨s.live key now, sum (s.live key now)⟩ }) := by
  rw [occupy, h.evicted, sum_append]
  dsimp only
  split
  · next hover => rw [if_neg (not_le.mpr hover)]
  · next hfits => rw [if_pos (not_lt.mp hfits)]

theorem Kept.remaining_fst (h : Kept s) (key : String) (now : ℚ) :
    (s.remaining key now).1 = s.limit - sum (s.live key now) := by
  rw [remaining]
  split
  · next hnone =>
    rw [live, reading_of_get?_none hnone]
    exact (sub_zero _).symm
  · next windowData hget =>
    dsimp only
    rw [evictExpired, evict_eq _ _ _ (h key windowData hget), live, reading_of_get? hget, level]

theorem Kept.remaining_snd (h : Kept s) (key : String) (now : ℚ) :
    (s.remaining key now).2 = s ∨ (s.remaining key now).2 = { s with
      windows := s.windows.set key ⟨s.live key now, sum (s.live key now)⟩ } := by
  rw [remaining]
  split
  · exact .inl rfl
  · next windowData hget =>
    refine .inr ?_
    dsimp only
    rw [evictExpired, evict_eq _ _ _ (h key windowData hget), live, reading_of_get? hget, level]

theorem Kept.occupy (h : Kept s) (key : String) (cost now : ℚ) :
    Kept (s.occupy key cost now).2 := by
  rw [h.occupy_eq]
  split
  · exact h.set _ _
  · exact h.set _ _

theorem Kept.remaining (h : Kept s) (key : String) (now : ℚ) : Kept (s.remaining key now).2 := by
  rcases h.remaining_snd key now with heq | heq
  · rw [heq]
    exact h
  · rw [heq]
    exact h.set _ _

theorem Kept.sweep_eq (h : Kept s) (now : ℚ) (key : String) : s.sweep now key = s ∨
    s.sweep now key = { s with
      windows := if s.live key now = [] then s.windows.erase key
        else s.windows.set key ⟨s.live key now, sum (s.live key now)⟩ } := by
  rw [sweep]
  split
  · exact .inl rfl
  · next windowData hget =>
    refine .inr ?_
    dsimp only
    rw [evictExpired, evict_eq _ _ _ (h key windowData hget), live, reading_of_get? hget, level]

theorem live_later (hnil : s.live key t = []) (hle : t ≤ now) : s.live key now = [] := by
  cases hget : s.windows.get? key with
  | none => rw [live, reading_of_get?_none hget]
  | some windowData =>
    rw [live, reading_of_get? hget, level] at hnil ⊢
    rw [← dropWhile_dropWhile hle, hnil, List.dropWhile_nil]

/-- A turn of the sweep keeps the totals, and changes no reading from then on. -/
theorem Kept.sweep (h : Kept s) (now : ℚ) (key : String) : Kept (s.sweep now key) ∧
    (s.sweep now key).limit = s.limit ∧ (s.sweep now key).windowMs = s.windowMs ∧
      Agree (level s.windowMs) [] now (s.sweep now key).windows s.windows := by
  rcases h.sweep_eq now key with heq | heq
  · rw [heq]
    exact ⟨h, rfl, rfl, .refl _⟩
  · rw [heq]
    refine ⟨?_, rfl, rfl, ?_⟩
    · split
      · exact h.erase key
      · exact h.set _ _
    · dsimp only
      split
      · next hnil => exact agree_erase fun later hlater => live_later hnil hlater
      · exact agree_evicted s key now _

theorem Kept.cleanup (h : Kept s) (now : ℚ) : Kept (s.cleanup now) ∧
    (s.cleanup now).limit = s.limit ∧ (s.cleanup now).windowMs = s.windowMs ∧
      Agree (level s.windowMs) [] now (s.cleanup now).windows s.windows := by
  rw [WindowLogStrategy.cleanup]
  generalize s.windows.keys = keys
  induction keys generalizing s with
  | nil => exact ⟨h, rfl, rfl, .refl _⟩
  | cons key keys ih =>
    obtain ⟨hkept, hlimit, hwindow, hagree⟩ := h.sweep now key
    obtain ⟨hkept', hlimit', hwindow', hagree'⟩ := ih hkept
    rw [hwindow] at hwindow' hagree'
    exact ⟨hkept', hlimit'.trans hlimit, hwindow', hagree'.trans hagree⟩

/-! ## Stores that agree -/

/-- Two limiters that no later reading tells apart. -/
structure Same (t : ℚ) (s s' : WindowLogStrategy) : Prop where
  limit : s.limit = s'.limit
  windowMs : s.windowMs = s'.windowMs
  left : Kept s
  right : Kept s'
  agree : Agree (level s.windowMs) [] t s.windows s'.windows

theorem Same.live (h : Same t s s') (hle : t ≤ now) (key : String) :
    s.live key now = s'.live key now :=
  (h.agree key now hle).trans (by rw [WindowLogStrategy.live, h.windowMs])

theorem Same.later (h : Same t s s') (hle : t ≤ now) : Same now s s' :=
  ⟨h.limit, h.windowMs, h.left, h.right, h.agree.later hle⟩

theorem Same.occupy (h : Same t s s') (hle : t ≤ now) (key : String) (cost : ℚ) :
    (s.occupy key cost now).1 = (s'.occupy key cost now).1 ∧
      Same now (s.occupy key cost now).2 (s'.occupy key cost now).2 := by
  have hlive := h.live hle key
  have hagree := h.agree.later hle
  rw [h.left.occupy_eq, h.right.occupy_eq]
  by_cases hfits : sum (s.live key now) + cost ≤ s.limit
  · have hfits' : sum (s'.live key now) + cost ≤ s'.limit := by rwa [← h.limit, ← hlive]
    rw [if_pos hfits, if_pos hfits', ← hlive]
    exact ⟨rfl, h.limit, h.windowMs, h.left.set _ _, h.right.set _ _, hagree.set fun _ _ => rfl⟩
  · have hover' : ¬ sum (s'.live key now) + cost ≤ s'.limit := by rwa [← h.limit, ← hlive]
    rw [if_neg hfits, if_neg hover', ← hlive]
    exact ⟨rfl, h.limit, h.windowMs, h.left.set _ _, h.right.set _ _, hagree.set fun _ _ => rfl⟩

theorem Same.remaining_left (h : Same t s s') (hle : t ≤ now) (key : String) :
    Same now (s.remaining key now).2 s' := by
  have hkept := h.left.remaining key now
  rcases h.left.remaining_snd key now with heq | heq
  · rw [heq]
    exact h.later hle
  · rw [heq] at hkept ⊢
    exact ⟨h.limit, h.windowMs, hkept, h.right,
      (agree_evicted s key now _).trans (h.agree.later hle)⟩

theorem Same.cleanup_left (h : Same t s s') (hle : t ≤ now) : Same now (s.cleanup now) s' := by
  obtain ⟨hkept, hlimit, hwindow, hagree⟩ := h.left.cleanup now
  refine ⟨hlimit.trans h.limit, hwindow.trans h.windowMs, hkept, h.right, ?_⟩
  rw [hwindow]
  exact hagree.trans (h.agree.later hle)

theorem Same.reset (h : Same t s s') (key : String) : Same t (s.reset key) (s'.reset key) :=
  ⟨h.limit, h.windowMs, h.left.erase key, h.right.erase key, h.agree.erase key⟩

end WindowLogStrategy

/-! ## Sliding windows -/

structure SlidingWindowStrategy extends WindowLogStrategy

namespace SlidingWindowStrategy

def new (maxRequests windowMs : ℚ) : SlidingWindowStrategy := ⟨.new maxRequests windowMs⟩

def check (s : SlidingWindowStrategy) (key : String) (cost now : ℚ) :
    Bool × SlidingWindowStrategy :=
  let (occupancyBefore, log) := s.occupy key cost now
  (occupancyBefore.isSome, ⟨log⟩)

theorem same_check {s s' : SlidingWindowStrategy} {t now : ℚ}
    (h : s.toWindowLogStrategy.Same t s'.toWindowLogStrategy) (hle : t ≤ now) (key : String)
    (cost : ℚ) : (s.check key cost now).1 = (s'.check key cost now).1 ∧
      (s.check key cost now).2.toWindowLogStrategy.Same now
        (s'.check key cost now).2.toWindowLogStrategy := by
  obtain ⟨heq, hsame⟩ := h.occupy hle key cost
  exact ⟨congrArg Option.isSome heq, hsame⟩

end SlidingWindowStrategy

/-! ## Leaky buckets -/

/-- Accepts the request and delays it in proportion to the occupancy of its key. -/
structure LeakyBucketStrategy extends WindowLogStrategy where
  leakRateMs : ℚ

namespace LeakyBucketStrategy

def new (maxRequests windowMs queueLimit : ℚ) : LeakyBucketStrategy where
  toWindowLogStrategy := .new queueLimit windowMs
  leakRateMs := windowMs / maxRequests

/-- The answer, and how long `check` sleeps before it gives it. -/
def check (s : LeakyBucketStrategy) (key : String) (cost now : ℚ) :
    Bool × ℚ × LeakyBucketStrategy :=
  let (occupancyBefore, log) := s.occupy key cost now
  match occupancyBefore with
  | none => (false, 0, { s with toWindowLogStrategy := log })
  | some occupancyBefore =>
    let waitTime := occupancyBefore * s.leakRateMs
    (true, if waitTime > 0 then waitTime else 0, { s with toWindowLogStrategy := log })

theorem same_check {s s' : LeakyBucketStrategy} {t now : ℚ}
    (h : s.toWindowLogStrategy.Same t s'.toWindowLogStrategy) (hrate : s.leakRateMs = s'.leakRateMs)
    (hle : t ≤ now) (key : String) (cost : ℚ) :
    (s.check key cost now).1 = (s'.check key cost now).1 ∧
      (s.check key cost now).2.1 = (s'.check key cost now).2.1 ∧
      (s.check key cost now).2.2.leakRateMs = (s'.check key cost now).2.2.leakRateMs ∧
      (s.check key cost now).2.2.toWindowLogStrategy.Same now
        (s'.check key cost now).2.2.toWindowLogStrategy := by
  obtain ⟨heq, hsame⟩ := h.occupy hle key cost
  rw [check, check, ← hrate]
  generalize s.occupy key cost now = occupied at heq hsame
  generalize s'.occupy key cost now = occupied' at heq hsame
  obtain ⟨occupancyBefore, log⟩ := occupied
  obtain ⟨occupancyBefore', log'⟩ := occupied'
  cases heq
  cases occupancyBefore with
  | none => exact ⟨rfl, rfl, rfl, hsame⟩
  | some occupancyBefore => exact ⟨rfl, rfl, rfl, hsame⟩

end LeakyBucketStrategy
end RabbitMQ
