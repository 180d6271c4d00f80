import ProductionRag.Api.RateLimiter
import ProductionRag.Auth

/-!
# Whose requests count

Each authenticated request takes a token from the bucket of its caller, whose key is the
tenant, a slash and the user.  The names come from the configuration, and may contain a
slash themselves.
-/

set_option autoImplicit false

namespace ProductionRag

open Basis

instance (left right : Principal) : Decidable (left.SameCaller right) :=
  inferInstanceAs (Decidable (_ ∧ _))

/-- A request that presented a configured key, with the reading of the clock. -/
structure AuthenticatedRequest (callers : List Principal) where
  principal : Principal
  configured : principal ∈ callers
  now : ℚ

namespace RateLimiter

/-- The limiter in front of the handlers: whether each request is refused. -/
def requests (callers : List Principal) :
    Mealy RateLimiter (AuthenticatedRequest callers) Bool where
  step limiter request :=
    let acquired := limiter.acquire request.principal.rateKey request.now
    (0 < acquired.1, acquired.2)

/-- Whether a caller is refused depends on the requests of that caller alone. -/
def OwnLimits (limiter : RateLimiter) (callers : List Principal) : Prop :=
  ∀ principal ∈ callers, ∀ run : List (AuthenticatedRequest callers),
    (requests callers).ownOutputs (fun request => request.principal.SameCaller principal)
        limiter run =
      (requests callers).outputs limiter
        (run.filter fun request => request.principal.SameCaller principal)

/-- No two callers have the same key. -/
def KeysApart (callers : List Principal) : Prop :=
  ∀ principal ∈ callers, ∀ other ∈ callers,
    other.tenantId ++ "/" ++ other.userId = principal.tenantId ++ "/" ++ principal.userId →
    other.SameCaller principal

/-- The first slash of a key ends the tenant when no tenant has a slash in its name. -/
theorem keysApart_of_plain {callers : List Principal}
    (plain : ∀ principal ∈ callers, '/' ∉ principal.tenantId.toList) : KeysApart callers := by
  intro principal isCaller other isOther sameKey
  have same := congrArg String.toList sameKey
  simp only [String.toList_append] at same
  have slash : ("/" : String).toList = ['/'] := rfl
  rw [slash, List.append_assoc, List.append_assoc] at same
  have cut : ∀ tenant user : List Char, '/' ∉ tenant →
      (tenant ++ (['/'] ++ user)).takeWhile (· ≠ '/') = tenant := by
    intro tenant user noSlash
    have long : ∀ c ∈ tenant, decide (c ≠ '/') = true := by
      intro c member
      exact decide_eq_true fun isSlash => noSlash (isSlash ▸ member)
    rw [List.takeWhile_append_of_pos long]
    simp
  have tenant := congrArg (List.takeWhile (· ≠ '/')) same
  rw [cut _ _ (plain other isOther), cut _ _ (plain principal isCaller)] at tenant
  rw [tenant] at same
  have user := (List.cons.inj (List.append_cancel_left same)).2
  exact ⟨String.toList_injective tenant, String.toList_injective user⟩

theorem level_le_capacity (limiter : RateLimiter) (key : String) (now : ℚ) :
    limiter.level key now ≤ limiter.capacity := by
  rw [← tokens_eq_level]
  exact min_le_left _ _

/-- The answer of the limiter is the answer of the route. -/
theorem requests_refused_iff (surroundings : Surroundings) {callers : List Principal}
    (limiter : RateLimiter) (request : AuthenticatedRequest callers) :
    ((requests callers).step limiter request).1 = true ↔
      Application.acquire (surroundings.limited limiter request.now) request.principal ≠
        .ok () := by
  rw [acquire_limited]
  split
  · rename_i wait
    refine iff_of_true (decide_eq_true wait) ?_
    intro wrong
    cases wrong
  · rename_i noWait
    exact iff_of_false (fun refused => noWait (of_decide_eq_true refused)) (not_not_intro rfl)

/-- A request is let through without a limit or with a token. -/
theorem refused_eq_false_iff (limiter : RateLimiter) (key : String) (now : ℚ) :
    decide (0 < (limiter.acquire key now).1) = false ↔
      limiter.rate ≤ 0 ∨ 1 ≤ limiter.level key now := by
  rw [decide_eq_false_iff_not]
  rcases le_or_gt limiter.rate 0 with still | rising
  · have free : (limiter.acquire key now).1 = 0 := by rw [acquire, if_pos still]
    rw [free]
    exact iff_of_true (lt_irrefl 0) (Or.inl still)
  · rw [acquire_pos_iff rising, not_not, or_iff_right (not_le.mpr rising)]

/-- Two limiters that treat the caller alike: they have one setting, and under it either the
bucket plays no part or its contents are the same. -/
structure Alike (key : String) (left right : RateLimiter) : Prop where
  rate : left.rate = right.rate
  capacity : left.capacity = right.capacity
  bucket : left.rate ≤ 0 ∨ left.capacity < 1 ∨ left.bucket key = right.bucket key

theorem Alike.refused {key : String} {left right : RateLimiter} (alike : Alike key left right)
    (now : ℚ) : decide (0 < (left.acquire key now).1) = decide (0 < (right.acquire key now).1) := by
  rw [Bool.eq_iff_iff, ← not_iff_not, Bool.not_eq_true, Bool.not_eq_true, refused_eq_false_iff,
    refused_eq_false_iff, alike.rate]
  refine or_congr_right' fun rising => ?_
  rcases alike.bucket with still | small | same
  · exact absurd (alike.rate ▸ still) rising
  · have leftSmall := (left.level_le_capacity key now).trans_lt small
    have rightSmall := (right.level_le_capacity key now).trans_lt (alike.capacity ▸ small)
    exact iff_of_false (not_le.mpr leftSmall) (not_le.mpr rightSmall)
  · rw [level, level, same, filling, filling, alike.rate, alike.capacity]

/-- A request of the caller keeps two such limiters alike. -/
theorem Alike.acquire {key : String} {left right : RateLimiter} (alike : Alike key left right)
    (now : ℚ) : Alike key (left.acquire key now).2 (right.acquire key now).2 := by
  obtain ⟨leftRate, leftCapacity⟩ := left.acquire_fixed key now
  obtain ⟨rightRate, rightCapacity⟩ := right.acquire_fixed key now
  refine ⟨by rw [leftRate, rightRate, alike.rate],
    by rw [leftCapacity, rightCapacity, alike.capacity], ?_⟩
  rw [leftRate, leftCapacity]
  rcases le_or_gt left.rate 0 with still | rising
  · exact Or.inl still
  · rcases alike.bucket with still | small | same
    · exact absurd still (not_le.mpr rising)
    · exact Or.inr (Or.inl small)
    · right
      right
      rw [(acquire_spec rising key now).2.1, (acquire_spec (alike.rate ▸ rising) key now).2.1, same,
        filling, filling, alike.rate, alike.capacity]

/-- A request of another caller moves one of them, and not where the caller looks. -/
theorem Alike.acquire_other {key other : String} {left right : RateLimiter}
    (alike : Alike key left right)
    (apart : left.rate ≤ 0 ∨ left.capacity < 1 ∨ other ≠ key) (now : ℚ) :
    Alike key (left.acquire other now).2 right := by
  obtain ⟨rate, capacity⟩ := left.acquire_fixed other now
  refine ⟨by rw [rate, alike.rate], by rw [capacity, alike.capacity], ?_⟩
  rw [rate, capacity]
  rcases le_or_gt left.rate 0 with still | rising
  · exact Or.inl still
  · rcases apart with still | small | different
    · exact Or.inl still
    · exact Or.inr (Or.inl small)
    · rw [(acquire_spec rising other now).2.2 key (Ne.symm different)]
      exact alike.bucket

theorem rateKey_congr {left right : Principal} (same : left.SameCaller right) :
    left.rateKey = right.rateKey := by
  rw [Principal.rateKey, same.1, same.2, Principal.rateKey]

/-- Without a limit, with a burst of less than one request, or with the keys apart. -/
theorem ownLimits_of {limiter : RateLimiter} {callers : List Principal}
    (apart : limiter.rate ≤ 0 ∨ limiter.capacity < 1 ∨ KeysApart callers) :
    limiter.OwnLimits callers := by
  intro principal isCaller run
  let related (left right : RateLimiter) : Prop :=
    Alike principal.rateKey left right ∧ left.rate = limiter.rate ∧
      left.capacity = limiter.capacity
  have start : related limiter limiter := ⟨⟨rfl, rfl, Or.inr (Or.inr rfl)⟩, rfl, rfl⟩
  refine @Mealy.ownOutputs_eq_of_related _ _ _ (requests callers) _ related ?_ ?_ _ _ start run
  · rintro left right request others ⟨alike, rate, capacity⟩
    obtain ⟨sameRate, sameCapacity⟩ := left.acquire_fixed request.principal.rateKey request.now
    refine ⟨alike.acquire_other ?_ request.now, sameRate.trans rate, sameCapacity.trans capacity⟩
    rw [rate, capacity]
    refine apart.imp_right (Or.imp_right fun keys sameKey => ?_)
    have same := keys principal isCaller request.principal request.configured sameKey
    exact absurd same (of_decide_eq_false others)
  · rintro left right request own ⟨alike, rate, capacity⟩
    have sameKey := rateKey_congr (of_decide_eq_true own)
    obtain ⟨sameRate, sameCapacity⟩ := left.acquire_fixed request.principal.rateKey request.now
    have answers := alike.refused request.now
    have next := alike.acquire request.now
    rw [← sameKey] at answers next
    exact ⟨answers, sameKey ▸ next, sameRate.trans rate, sameCapacity.trans capacity⟩

theorem requests_run {callers : List Principal} (limiter : RateLimiter)
    (run : List (AuthenticatedRequest callers)) :
    (requests callers).run limiter run =
      limiter.after (run.map fun request => (request.principal, request.now)) := by
  induction run generalizing limiter with
  | nil => rfl
  | cons request later ih => exact ih _

/-- Two callers with one key: the first one's requests get the second one refused. -/
theorem not_ownLimits {limiter : RateLimiter} {callers : List Principal}
    (rising : 0 < limiter.rate) {principal other : Principal} (isCaller : principal ∈ callers)
    (isOther : other ∈ callers) (full : 1 ≤ limiter.level principal.rateKey 0)
    (sameKey : other.rateKey = principal.rateKey) (different : ¬ other.SameCaller principal) :
    ¬ limiter.OwnLimits callers := by
  intro alone
  obtain ⟨count, drained⟩ := drained_by_other rising sameKey 0
  let theirs := List.replicate count (⟨other, isOther, 0⟩ : AuthenticatedRequest callers)
  let mine : AuthenticatedRequest callers := ⟨principal, isCaller, 0⟩
  have notMine : ∀ request ∈ theirs,
      decide (request.principal.SameCaller principal) = false := by
    intro request member
    rw [List.eq_of_mem_replicate member]
    exact decide_eq_false different
  have isMine : decide (mine.principal.SameCaller principal) = true := decide_eq_true ⟨rfl, rfl⟩
  have answers := alone principal isCaller (theirs ++ [mine])
  have nothing : theirs.filter (fun request => request.principal.SameCaller principal) = [] := by
    rw [List.filter_eq_nil_iff]
    intro request member
    rw [notMine request member]
    exact Bool.false_ne_true
  have kept : (theirs ++ [mine]).filter (fun request => request.principal.SameCaller principal) =
      [mine] := by
    rw [List.filter_append, nothing, List.nil_append, List.filter_cons, if_pos isMine,
      List.filter_nil]
  rw [Mealy.ownOutputs_append notMine, requests_run, kept] at answers
  have after : theirs.map (fun request => (request.principal, request.now)) =
      List.replicate count (other, 0) := List.map_replicate
  rw [after] at answers
  simp only [Mealy.ownOutputs, isMine, if_true, Mealy.outputs, requests] at answers
  have through := (refused_eq_false_iff limiter principal.rateKey 0).mpr (Or.inr full)
  have sameAnswer := (List.cons.inj answers).1
  rw [show mine.principal = principal from rfl, show mine.now = 0 from rfl, through,
    refused_eq_false_iff] at sameAnswer
  rcases sameAnswer with still | level
  · rw [RateLimiter.after, (run_fixed _ _).1] at still
    exact absurd still (not_le.mpr rising)
  · exact absurd level (not_le.mpr drained)

theorem level_make (ratePerMinute : ℚ) (burst : Option ℚ) (key : String) (now : ℚ) :
    (make ratePerMinute burst).level key now = (make ratePerMinute burst).capacity := rfl

/-- Configured callers have limits of their own exactly when there is no limit, when the burst
admits nobody, or when no two callers spell the same key. -/
theorem ownLimits_iff (store : ApiKeyStore) (ratePerMinute : ℚ) (burst : Option ℚ) :
    (make ratePerMinute burst).OwnLimits store.callers ↔
      ratePerMinute ≤ 0 ∨ (make ratePerMinute burst).capacity < 1 ∨ KeysApart store.callers := by
  have rate : (make ratePerMinute burst).rate ≤ 0 ↔ ratePerMinute ≤ 0 := by
    change ratePerMinute / 60 ≤ 0 ↔ ratePerMinute ≤ 0
    rw [div_nonpos_iff]
    constructor
    · rintro (⟨_, wrong⟩ | ⟨still, _⟩)
      · norm_num at wrong
      · exact still
    · exact fun still => Or.inr ⟨still, by norm_num⟩
  rw [← rate]
  refine ⟨fun alone => ?_, ownLimits_of⟩
  by_contra fails
  obtain ⟨rising, more⟩ := not_or.mp fails
  obtain ⟨room, together⟩ := not_or.mp more
  simp only [KeysApart, not_forall] at together
  obtain ⟨principal, isCaller, other, isOther, sameKey, different⟩ := together
  have full : 1 ≤ (make ratePerMinute burst).level principal.rateKey 0 := by
    rw [level_make]
    exact not_lt.mp room
  exact not_ownLimits (not_le.mp rising) isCaller isOther full sameKey different alone

/-- A configuration of two keys, for callers whose names join to the same text. -/
def slashedNames : Json :=
  .array [.object [("key_sha256", .string (String.ofList (List.replicate 64 'a'))),
      ("tenant_id", .string "a/b"), ("user_id", .string "c")],
    .object [("key_sha256", .string (String.ofList (List.replicate 64 'b'))),
      ("tenant_id", .string "a"), ("user_id", .string "b/c")]]

/-- User `c` of tenant `a/b` is refused because user `b/c` of tenant `a` was there first. -/
theorem slashed_names_share :
    ¬ ∀ (surroundings : Surroundings) (entries : Json) (store : ApiKeyStore)
      (ratePerMinute : ℚ) (burst : Option ℚ),
      ApiKeyStore.fromEntries surroundings entries = .ok store →
      (make ratePerMinute burst).OwnLimits store.callers := by
  intro claimed
  have callersOf : (ApiKeyStore.fromEntries Application.unreadable slashedNames).map
      ApiKeyStore.callers = .ok [{ tenantId := "a/b", userId := "c" },
        { tenantId := "a", userId := "b/c" }] := by
    decide +kernel
  cases accepted : ApiKeyStore.fromEntries Application.unreadable slashedNames with
  | error e =>
      rw [accepted] at callersOf
      cases callersOf
  | ok store =>
      rw [accepted] at callersOf
      have alone := claimed _ _ store 60 (some 1) accepted
      rw [Except.ok.inj callersOf] at alone
      revert alone
      refine not_ownLimits (by decide +kernel) List.mem_cons_self
        (List.mem_cons_of_mem _ List.mem_cons_self) ?_ (by decide +kernel) (by decide +kernel)
      decide +kernel

end RateLimiter

end ProductionRag
