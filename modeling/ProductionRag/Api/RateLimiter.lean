import Mathlib.Algebra.Order.Archimedean.Basic
import ProductionRag.Api.Failures
import ProductionRag.Basis.Mealy
import ProductionRag.Basis.TokenBucket

/-!
# The rate limit

`RateLimiter` keeps a token bucket for each caller.  The clock is read outside the lock, so
the calls of several threads take their tokens with readings in any order.  A request
without a token is refused, and told in how many seconds to come again.
-/

set_option autoImplicit false

namespace ProductionRag

open Basis

structure RateLimiter where
  rate : ℚ
  capacity : ℚ
  /-- The tokens of each key, and when they were counted. -/
  buckets : String → Option (ℚ × ℚ) := fun _ => none

namespace RateLimiter

/-- The constructor. -/
def make (ratePerMinute : ℚ) (burst : Option ℚ := none) : RateLimiter where
  rate := ratePerMinute / 60
  capacity := burst.getD (max 1 ratePerMinute)

/-- Take one token: 0, or the seconds to wait. -/
def acquire (limiter : RateLimiter) (key : String) (now : ℚ) : ℚ × RateLimiter :=
  if limiter.rate ≤ 0 then (0, limiter)
  else
    let stored := (limiter.buckets key).getD (limiter.capacity, now)
    let tokens := min limiter.capacity (stored.1 + (now - stored.2) * limiter.rate)
    let store (left : ℚ) : RateLimiter :=
      { limiter with buckets := Function.update limiter.buckets key (some (left, now)) }
    if 1 ≤ tokens then (0, store (tokens - 1))
    else ((1 - tokens) / limiter.rate, store tokens)

/-- The calls in the order in which they get the lock. -/
def machine : Mealy RateLimiter (String × ℚ) ℚ where
  step limiter call := limiter.acquire call.1 call.2

/-- The readings at which calls for the key return 0. -/
def granted (limiter : RateLimiter) (key : String) (calls : List (String × ℚ)) : List ℚ :=
  (calls.zip (machine.outputs limiter calls)).filterMap fun entry =>
    if entry.1.1 = key ∧ entry.2 = 0 then some entry.1.2 else none

/-! ## Buckets of tokens -/

def filling (limiter : RateLimiter) : Filling ℚ := ⟨limiter.rate, limiter.capacity⟩

def bucket (limiter : RateLimiter) (key : String) : Option (Bucket ℚ) :=
  (limiter.buckets key).map fun stored => ⟨stored.1, stored.2⟩

/-- What the bucket of the key holds. -/
def level (limiter : RateLimiter) (key : String) (now : ℚ) : ℚ :=
  limiter.filling.level now (limiter.bucket key)

theorem tokens_eq_level (limiter : RateLimiter) (key : String) (now : ℚ) :
    let stored := (limiter.buckets key).getD (limiter.capacity, now)
    min limiter.capacity (stored.1 + (now - stored.2) * limiter.rate) = limiter.level key now := by
  unfold level bucket
  cases limiter.buckets key with
  | none => simp [filling, Filling.level]
  | some stored => rfl

/-- No call changes the rate or the capacity. -/
theorem acquire_fixed (limiter : RateLimiter) (key : String) (now : ℚ) :
    (limiter.acquire key now).2.rate = limiter.rate ∧
      (limiter.acquire key now).2.capacity = limiter.capacity := by
  unfold acquire
  split
  · exact ⟨rfl, rfl⟩
  · dsimp only
    split <;> exact ⟨rfl, rfl⟩

theorem acquire_filling (limiter : RateLimiter) (key : String) (now : ℚ) :
    (limiter.acquire key now).2.filling = limiter.filling := by
  obtain ⟨rate, capacity⟩ := limiter.acquire_fixed key now
  rw [filling, rate, capacity, filling]

theorem run_fixed (limiter : RateLimiter) (calls : List (String × ℚ)) :
    (machine.run limiter calls).rate = limiter.rate ∧
      (machine.run limiter calls).capacity = limiter.capacity := by
  induction calls generalizing limiter with
  | nil => exact ⟨rfl, rfl⟩
  | cons call later ih =>
      obtain ⟨rate, capacity⟩ := limiter.acquire_fixed call.1 call.2
      obtain ⟨laterRate, laterCapacity⟩ := ih (limiter.acquire call.1 call.2).2
      exact ⟨laterRate.trans rate, laterCapacity.trans capacity⟩

/-- What a call does: it asks the bucket of its key. -/
theorem acquire_spec {limiter : RateLimiter} (rising : 0 < limiter.rate) (key : String)
    (now : ℚ) :
    (limiter.acquire key now).1 =
        (if 1 ≤ limiter.level key now then 0 else (1 - limiter.level key now) / limiter.rate) ∧
      (limiter.acquire key now).2.bucket key =
        some (limiter.filling.ask (limiter.bucket key) now) ∧
      ∀ other, other ≠ key → (limiter.acquire key now).2.bucket other = limiter.bucket other := by
  have tokens := limiter.tokens_eq_level key now
  dsimp only at tokens
  have asked : limiter.filling.ask (limiter.bucket key) now =
      ⟨limiter.level key now - if 1 ≤ limiter.level key now then 1 else 0, now⟩ := rfl
  unfold acquire
  rw [if_neg (not_le.mpr rising)]
  dsimp only
  rw [tokens, asked]
  by_cases full : 1 ≤ limiter.level key now
  · rw [if_pos full, if_pos full, if_pos full]
    refine ⟨rfl, by simp [bucket], fun other different => ?_⟩
    simp [bucket, Function.update_of_ne different]
  · rw [if_neg full, if_neg full, if_neg full, sub_zero]
    refine ⟨rfl, by simp [bucket], fun other different => ?_⟩
    simp [bucket, Function.update_of_ne different]

/-- A call returns 0 exactly when there is a token. -/
theorem acquire_eq_zero_iff {limiter : RateLimiter} (rising : 0 < limiter.rate) (key : String)
    (now : ℚ) : (limiter.acquire key now).1 = 0 ↔ 1 ≤ limiter.level key now := by
  rw [(acquire_spec rising key now).1]
  split
  · rename_i full
    exact iff_of_true rfl full
  · rename_i empty
    have wait : 0 < (1 - limiter.level key now) / limiter.rate :=
      div_pos (sub_pos.mpr (not_le.mp empty)) rising
    exact iff_of_false wait.ne' empty

theorem granted_cons (limiter : RateLimiter) (key : String) (call : String × ℚ)
    (later : List (String × ℚ)) :
    limiter.granted key (call :: later) =
      (if call.1 = key ∧ (limiter.acquire call.1 call.2).1 = 0 then [call.2] else []) ++
        (limiter.acquire call.1 call.2).2.granted key later := by
  by_cases given : call.1 = key ∧ (limiter.acquire call.1 call.2).1 = 0
  · rw [if_pos given, granted, Mealy.outputs, List.zip_cons_cons]
    exact List.filterMap_cons_some (if_pos given)
  · rw [if_neg given, granted, Mealy.outputs, List.zip_cons_cons]
    exact List.filterMap_cons_none (if_neg given)

/-- The tokens of a key are given as one bucket gives them to the calls for the key alone. -/
theorem granted_eq {limiter : RateLimiter} (rising : 0 < limiter.rate) (key : String)
    (calls : List (String × ℚ)) :
    limiter.granted key calls = limiter.filling.given (limiter.bucket key)
      ((calls.filter fun call => call.1 = key).map (·.2)) := by
  induction calls generalizing limiter with
  | nil => rfl
  | cons call later ih =>
      obtain ⟨caller, now⟩ := call
      obtain ⟨_, own, others⟩ := acquire_spec rising caller now
      have stillRising : 0 < (limiter.acquire caller now).2.rate := by
        rwa [(limiter.acquire_fixed caller now).1]
      rw [granted_cons, ih stillRising, acquire_filling]
      by_cases isOwn : caller = key
      · subst isOwn
        rw [own, List.filter_cons_of_pos (by simp), List.map_cons]
        by_cases full : 1 ≤ limiter.level caller now
        · rw [if_pos ⟨rfl, (acquire_eq_zero_iff rising caller now).mpr full⟩,
            Filling.given_cons_of_full _ _ full]
          rfl
        · rw [if_neg fun given => full ((acquire_eq_zero_iff rising caller now).mp given.2),
            Filling.given_cons_of_empty _ _ full]
          rfl
      · rw [if_neg fun given => isOwn given.1, List.filter_cons_of_neg (by simpa using isOwn),
          others key (Ne.symm isOwn)]
        rfl

/-- Calls for other keys leave a bucket alone. -/
theorem run_others {limiter : RateLimiter} (rising : 0 < limiter.rate) {key : String}
    {calls : List (String × ℚ)} (others : ∀ call ∈ calls, call.1 ≠ key) :
    (machine.run limiter calls).bucket key = limiter.bucket key := by
  induction calls generalizing limiter with
  | nil => rfl
  | cons call later ih =>
      obtain ⟨other, rest⟩ := List.forall_mem_cons.mp others
      have stillRising : 0 < (limiter.acquire call.1 call.2).2.rate := by
        rwa [(limiter.acquire_fixed call.1 call.2).1]
      exact (ih stillRising rest).trans
        ((acquire_spec rising call.1 call.2).2.2 key (Ne.symm other))

/-- After a refusal, with calls for other keys in between, there is a token exactly when the
wait is over. -/
theorem level_after_refusal {limiter : RateLimiter} (rising : 0 < limiter.rate)
    (room : 1 ≤ limiter.capacity) {key : String} {now later : ℚ}
    (empty : ¬ 1 ≤ limiter.level key now) {between : List (String × ℚ)}
    (others : ∀ call ∈ between, call.1 ≠ key) :
    1 ≤ (machine.run (limiter.acquire key now).2 between).level key later ↔
      now + (limiter.acquire key now).1 ≤ later := by
  obtain ⟨wait, own, _⟩ := acquire_spec rising key now
  obtain ⟨rate, capacity⟩ := limiter.acquire_fixed key now
  obtain ⟨laterRate, laterCapacity⟩ := run_fixed (limiter.acquire key now).2 between
  have sameFilling : (machine.run (limiter.acquire key now).2 between).filling =
      limiter.filling := by
    rw [filling, laterRate, laterCapacity, rate, capacity, filling]
  rw [wait, if_neg empty, level, sameFilling, run_others (rate ▸ rising) others, own]
  exact @Filling.level_after_wait _ _ _ _ limiter.filling rising room _ _ _ empty

/-- However the calls of the threads interleave, a key gets at most the capacity and what flows
in during a window; and whoever waits as long as told gets a token. -/
theorem acquire_bounded (limiter : RateLimiter) (rising : 0 < limiter.rate)
    (room : 1 ≤ limiter.capacity) (key : String) :
    (∀ (calls : List (String × ℚ)) (start stop : ℚ), start ≤ stop →
      (((limiter.granted key calls).countP fun now => start ≤ now ∧ now ≤ stop : Nat) : ℚ) ≤
        limiter.capacity + limiter.rate * (stop - start)) ∧
    ∀ (before between : List (String × ℚ)) (now later : ℚ),
      let refused := (machine.run limiter before).acquire key now
      0 < refused.1 → (∀ call ∈ between, call.1 ≠ key) → now + refused.1 ≤ later →
      ((machine.run refused.2 between).acquire key later).1 = 0 := by
  constructor
  · intro calls start stop ordered
    rw [granted_eq rising]
    exact @Filling.givenWithin_le _ _ _ _ limiter.filling rising.le room _ _ _ ordered _
  · intro before between now later refused wait others waited
    obtain ⟨rate, capacity⟩ := limiter.run_fixed before
    have stillRising : 0 < (machine.run limiter before).rate := by rwa [rate]
    have empty : ¬ 1 ≤ (machine.run limiter before).level key now := fun full =>
      wait.ne' ((acquire_eq_zero_iff stillRising key now).mpr full)
    have laterRising : 0 < (machine.run refused.2 between).rate := by
      rwa [(run_fixed refused.2 between).1, (acquire_fixed _ key now).1]
    rw [acquire_eq_zero_iff laterRising,
      level_after_refusal stillRising (by rwa [capacity]) empty others]
    exact waited

/-- Two calls take the burst, a third is told to wait for a second. -/
theorem third_call_waits :
    let limiter := make 60 (some 2)
    let refused := (machine.run limiter [("a", 0), ("a", 0)]).acquire "a" 0
    refused.1 = 1 ∧ ((machine.run refused.2 [("b", 0)]).acquire "a" 1).1 = 0 ∧
      (((limiter.granted "a" [("a", 0), ("a", 0), ("a", 0), ("b", 0), ("a", 1)]).countP
        fun now => 0 ≤ now ∧ now ≤ 1 : Nat) : ℚ) ≤ 3 := by
  intro limiter refused
  obtain ⟨window, waits⟩ := acquire_bounded limiter (by decide +kernel) (by decide +kernel) "a"
  refine ⟨by decide +kernel, ?_, ?_⟩
  · exact waits [("a", 0), ("a", 0)] [("b", 0)] 0 1 (by decide +kernel)
      (List.forall_mem_singleton.mpr (by decide)) (by decide +kernel)
  · have three : limiter.capacity + limiter.rate * (1 - 0) = 3 := by decide +kernel
    exact three ▸ window _ 0 1 (by decide +kernel)

end RateLimiter

/-! ## `Retry-After` -/

def Principal.rateKey (principal : Principal) : String :=
  principal.tenantId ++ "/" ++ principal.userId

/-- One user of one tenant. -/
def Principal.SameCaller (left right : Principal) : Prop :=
  left.tenantId = right.tenantId ∧ left.userId = right.userId

namespace Surroundings

/-- With the limiter at a reading of the clock. -/
def limited (surroundings : Surroundings) (limiter : RateLimiter) (now : ℚ) : Surroundings :=
  { surroundings with acquire := fun key => .ok (limiter.acquire key now).1 }

end Surroundings

namespace RateLimiter

/-- The limiter after requests, each of a caller at a reading of the clock. -/
def after (limiter : RateLimiter) (requests : List (Principal × ℚ)) : RateLimiter :=
  machine.run limiter (requests.map fun request => (request.1.rateKey, request.2))

section Requests

variable (surroundings : Surroundings) {limiter : RateLimiter} (rising : 0 < limiter.rate)

include rising in
theorem acquire_pos_iff (key : String) (now : ℚ) :
    0 < (limiter.acquire key now).1 ↔ ¬ 1 ≤ limiter.level key now := by
  rw [(acquire_spec rising key now).1]
  split
  · rename_i full
    exact iff_of_false (lt_irrefl 0) (not_not_intro full)
  · rename_i empty
    exact iff_of_true (div_pos (sub_pos.mpr (not_le.mp empty)) rising) empty

theorem acquire_limited (limiter : RateLimiter) (principal : Principal) (now : ℚ) :
    Application.acquire (surroundings.limited limiter now) principal =
      if 0 < (limiter.acquire principal.rateKey now).1 then
        .error (.api { status := 429, message := "rate limit exceeded"
                       retryAfter := some
                         (max 1 (roundHalfEven (limiter.acquire principal.rateKey now).1)).toNat })
      else .ok () := rfl

include rising in
/-- Requests at one reading take the tokens one by one. -/
theorem level_drained (key : String) (now : ℚ) (count : Nat) :
    (machine.run limiter (List.replicate count (key, now))).level key now < 1 ∨
      (machine.run limiter (List.replicate count (key, now))).level key now =
        limiter.level key now - count := by
  induction count generalizing limiter with
  | zero =>
      right
      rw [Nat.cast_zero, sub_zero]
      rfl
  | succ count ih =>
      have stillRising : 0 < (limiter.acquire key now).2.rate := by
        rwa [(limiter.acquire_fixed key now).1]
      have next : (limiter.acquire key now).2.level key now =
          limiter.level key now - if 1 ≤ limiter.level key now then 1 else 0 := by
        rw [level, acquire_filling, (acquire_spec rising key now).2.1]
        exact Filling.level_ask _ _ _
      rw [List.replicate_succ]
      rcases ih stillRising with drained | taken
      · exact Or.inl drained
      · rw [next] at taken
        rw [Nat.cast_add, Nat.cast_one]
        by_cases full : 1 ≤ limiter.level key now
        · rw [if_pos full] at taken
          exact Or.inr (taken.trans (by ring))
        · rw [if_neg full, sub_zero] at taken
          have some : (0 : ℚ) ≤ count := Nat.cast_nonneg count
          have few : limiter.level key now - count < 1 := by linarith [not_le.mp full]
          exact Or.inl (taken.trans_lt few)

include rising in
/-- Another caller with the same key can empty the bucket. -/
theorem drained_by_other {principal other : Principal} (sameKey : other.rateKey = principal.rateKey)
    (now : ℚ) :
    ∃ count,
      (limiter.after (List.replicate count (other, now))).level principal.rateKey now < 1 := by
  obtain ⟨count, many⟩ := exists_nat_gt (limiter.level principal.rateKey now)
  refine ⟨count, ?_⟩
  rw [after, List.map_replicate, sameKey]
  rcases level_drained rising principal.rateKey now count with drained | taken
  · exact drained
  · rw [taken]
    linarith

end Requests

end RateLimiter

end ProductionRag
