import EasyTier.Data.CreditAccount

/-! # The token bucket

`TokenBucket` hands out tokens that are refilled on demand. Its state is an account that earns
`fill_rate` billionths of a token in every nanosecond: whole tokens are kept in `available_tokens`,
the rest in `refill_remainder`. Every subtraction of the source is checked here, so that a result
says that none of them underflows. Moments are counted in nanoseconds.
-/

namespace EasyTier.Foundation

open Data CreditAccount

def nanosPerSecond : Nat := 1000000000

/-- Both fields are `u64`. -/
structure BucketConfig where
  capacity : Nat
  fillRate : Nat
  capacityFits : capacity < 2 ^ 64
  fillRateFits : fillRate < 2 ^ 64
  deriving DecidableEq

/-- The tokens, and the part of one that a refill left over. -/
structure BucketState where
  availableTokens : Nat
  lastRefill : Nat
  refillRemainder : Nat
  deriving DecidableEq

open BucketState

structure TokenBucket where
  state : BucketState
  config : BucketConfig
  stopped : Bool
  deriving DecidableEq

/-- A subtraction that panics on underflow. -/
def checkedSub (left right : Nat) : Option Nat :=
  if right ≤ left then some (left - right) else none

theorem checkedSub_of_le {left right : Nat} (ordered : right ≤ left) :
    checkedSub left right = some (left - right) := if_pos ordered

/-- `u128::saturating_mul`. -/
def saturatingMul (left right : Nat) : Nat := min (left * right) (2 ^ 128 - 1)

/-- `u128::saturating_add`. -/
def saturatingAdd (left right : Nat) : Nat := min (left + right) (2 ^ 128 - 1)

/-- `u128::div_ceil`. -/
def divCeil (left right : Nat) : Nat := left / right + if left % right = 0 then 0 else 1

/-- `refill`. -/
def refill (config : BucketConfig) (state : BucketState) (now : Nat) : Option BucketState :=
  let elapsedNanos := now - state.lastRefill
  if elapsedNanos = 0 then
    some state
  else if state.availableTokens = config.capacity then
    some { state with lastRefill := now, refillRemainder := 0 }
  else
    let generated :=
      saturatingAdd (saturatingMul config.fillRate elapsedNanos) state.refillRemainder
    let tokensToAdd := generated / nanosPerSecond
    let refillRemainder := generated % nanosPerSecond
    (checkedSub config.capacity state.availableTokens).map fun availableCapacity =>
      if availableCapacity ≤ tokensToAdd then
        { availableTokens := config.capacity, lastRefill := now, refillRemainder := 0 }
      else
        { availableTokens := state.availableTokens + tokensToAdd % 2 ^ 64
          lastRefill := now
          refillRemainder := refillRemainder % 2 ^ 64 }

variable (bucket : TokenBucket)

namespace TokenBucket

/-- `new_from_cfg`. -/
def newFromCfg (config : BucketConfig) (now : Nat) : TokenBucket where
  state := { availableTokens := max config.capacity 1, lastRefill := now, refillRemainder := 0 }
  config :=
    { capacity := max config.capacity 1
      fillRate := max config.fillRate 1
      capacityFits := by have := config.capacityFits; omega
      fillRateFits := by have := config.fillRateFits; omega }
  stopped := false

/-- `TokenBucket::new`, of two 64-bit numbers. -/
def new (capacity bps now : Nat) : TokenBucket :=
  newFromCfg
    { capacity := capacity % 2 ^ 64
      fillRate := bps % 2 ^ 64
      capacityFits := Nat.mod_lt _ (by decide)
      fillRateFits := Nat.mod_lt _ (by decide) } now

/-- Take tokens that are there. -/
def take (state : BucketState) (tokens : Nat) : Option TokenBucket :=
  (checkedSub state.availableTokens tokens).map fun left =>
    { bucket with state := { state with availableTokens := left } }

/-- `try_consume`. -/
def tryConsume (tokens now : Nat) : Option (Bool × TokenBucket) :=
  if bucket.stopped then
    some (true, bucket)
  else if bucket.config.capacity < tokens then
    some (false, bucket)
  else
    (refill bucket.config bucket.state now).bind fun state =>
      if state.availableTokens < tokens then
        some (false, { bucket with state := state })
      else
        (bucket.take state tokens).map fun after => (true, after)

/-- A bucket that was just made grants a token. -/
theorem tryConsume_new (capacity bps now : Nat) :
    ∃ after, (new capacity bps now).tryConsume 1 now = some (true, after) := by
  have filled : refill (new capacity bps now).config (new capacity bps now).state now =
      some (new capacity bps now).state := by
    simp [refill, new, newFromCfg]
  unfold tryConsume
  rw [filled]
  simp [new, newFromCfg, take, checkedSub]

/-- One turn of the loop of `consume_chunk`: it returns, or sleeps for some nanoseconds. -/
def consumeChunk (tokens now : Nat) : Option (Option Nat × TokenBucket) :=
  if bucket.stopped then
    some (none, bucket)
  else
    (refill bucket.config bucket.state now).bind fun state =>
      if tokens ≤ state.availableTokens then
        (bucket.take state tokens).map fun after => (none, after)
      else
        (checkedSub tokens state.availableTokens).bind fun deficit =>
          (checkedSub (deficit * nanosPerSecond) state.refillRemainder).map fun remaining =>
            let sleepNanos := min (divCeil remaining bucket.config.fillRate) (2 ^ 64 - 1)
            (some (max sleepNanos 1000000), { bucket with state := state })

/-- `stop`. -/
def stop : TokenBucket := { bucket with stopped := true }

end TokenBucket

/-! ## The account behind a bucket -/

/-- The credit in billionths of a token. -/
def BucketState.account (state : BucketState) : CreditAccount where
  credit := nanosPerSecond * state.availableTokens + state.refillRemainder
  since := state.lastRefill

/-- No full token is left in the remainder, and the credit does not pass the capacity. -/
structure BucketState.Valid (config : BucketConfig) (state : BucketState) : Prop where
  remainder : state.refillRemainder < nanosPerSecond
  credit : state.account.credit ≤ nanosPerSecond * config.capacity

variable {config : BucketConfig} {state : BucketState}

theorem BucketState.Valid.available_le
    (valid : state.Valid config) : state.availableTokens ≤ config.capacity := by
  have credit := valid.credit
  simp only [account, nanosPerSecond] at credit
  omega

/-- The account determines the state. -/
theorem BucketState.account_inj {left right : BucketState}
    (leftValid : left.Valid config) (rightValid : right.Valid config)
    (same : left.account = right.account) : left = right := by
  have leftRemainder := leftValid.remainder
  have rightRemainder := rightValid.remainder
  cases left
  cases right
  simp only [account, CreditAccount.mk.injEq, nanosPerSecond] at *
  simp only [BucketState.mk.injEq]
  omega

/-- A saturated sum is worth more tokens than a `u64` holds. -/
theorem generated_cases (fillRate elapsed remainder : Nat) :
    saturatingAdd (saturatingMul fillRate elapsed) remainder = fillRate * elapsed + remainder ∨
      saturatingAdd (saturatingMul fillRate elapsed) remainder ≤ fillRate * elapsed + remainder ∧
      2 ^ 64 ≤ saturatingAdd (saturatingMul fillRate elapsed) remainder / nanosPerSecond := by
  simp only [saturatingAdd, saturatingMul, nanosPerSecond]
  omega

/-- A refill earns the account what the time since the last one is worth. The products that
saturate are large enough to fill any bucket. -/
theorem refill_spec (valid : state.Valid config) (now : Nat) :
    ∃ after, refill config state now = some after ∧ after.Valid config ∧
      after.account =
        state.account.advance (nanosPerSecond * config.capacity) config.fillRate now := by
  have credit := valid.credit
  have fits := config.capacityFits
  simp only [refill]
  by_cases still : now - state.lastRefill = 0
  · refine ⟨state, if_pos still, valid, ?_⟩
    simp only [advance, account, still, Nat.mul_zero, CreditAccount.mk.injEq]
    simp only [account] at credit
    omega
  rw [if_neg still]
  have ticked : max state.lastRefill now = now := by omega
  by_cases full : state.availableTokens = config.capacity
  · refine ⟨_, if_pos full, ⟨?_, ?_⟩, ?_⟩
    · simp [nanosPerSecond]
    · simp [account, full]
    · simp only [advance, account, full, ticked, CreditAccount.mk.injEq, and_true]
      omega
  rw [if_neg full, checkedSub_of_le valid.available_le, Option.map_some]
  refine ⟨_, rfl, ?_⟩
  have generated := generated_cases config.fillRate (now - state.lastRefill) state.refillRemainder
  split
  · rename_i fills
    refine ⟨⟨?_, ?_⟩, ?_⟩
    · simp [nanosPerSecond]
    · simp [account]
    · simp only [advance, account, ticked, CreditAccount.mk.injEq, and_true]
      simp only [nanosPerSecond] at fills credit generated ⊢
      omega
  · -- the sum did not saturate, or it would have filled the bucket
    rename_i room
    simp only [nanosPerSecond] at room credit generated
    refine ⟨⟨?_, ?_⟩, ?_⟩
    · simp only [nanosPerSecond]
      omega
    · simp only [account, nanosPerSecond]
      omega
    · simp only [advance, account, ticked, CreditAccount.mk.injEq, and_true, nanosPerSecond]
      omega

/-- The test of the source: ten refills of one and a half tokens each lose no fraction. -/
example : (((List.range 10).map fun step => (step + 1) * 15000000).foldl
    (fun state now => state.bind fun state =>
      refill ⟨100, 100, by decide, by decide⟩ state now)
    (some { availableTokens := 0, lastRefill := 0, refillRemainder := 0 })).map
      (fun state => (state.availableTokens, state.refillRemainder)) = some (15, 0) := by
  decide +kernel

/-- Refills at several moments. -/
def refills (config : BucketConfig) : BucketState → List Nat → Option BucketState
  | state, [] => some state
  | state, now :: later => (refill config state now).bind fun after => refills config after later

/-- Refills before a refill change nothing. -/
theorem refills_then_refill (valid : state.Valid config) {times : List Nat} {now : Nat}
    (before : ∀ time ∈ times, time ≤ now) :
    (refills config state times).bind (fun after => refill config after now) =
      refill config state now := by
  induction times generalizing state with
  | nil => rfl
  | cons time times ih =>
    obtain ⟨middle, refilled, middleValid, earned⟩ := refill_spec valid time
    have rest := ih middleValid fun other member => before other (List.mem_cons_of_mem _ member)
    rw [refills, refilled, Option.bind_some, rest]
    obtain ⟨split, splitRefill, splitValid, splitEarned⟩ := refill_spec middleValid now
    obtain ⟨whole, wholeRefill, wholeValid, wholeEarned⟩ := refill_spec valid now
    rw [splitRefill, wholeRefill]
    congr 1
    apply account_inj splitValid wholeValid
    rw [splitEarned, wholeEarned, earned, advance_advance _ _ _ (before time List.mem_cons_self)]

/-! ## Runs of a bucket -/

/-- The calls on a bucket and the moments they read; an attempt of `consume_chunk` is one turn of
its loop. -/
inductive BucketCall where
  | tryConsume (tokens now : Nat)
  | consumeChunk (tokens now : Nat)
  | stop (now : Nat)

def BucketCall.now : BucketCall → Nat
  | .tryConsume _ now | .consumeChunk _ now | .stop now => now

namespace TokenBucket

/-- One call, with the tokens it took out of the bucket. A stopped bucket lets everything pass and
takes nothing. -/
def call : BucketCall → Option (Nat × TokenBucket)
  | .tryConsume tokens now => (bucket.tryConsume tokens now).map fun result =>
    (if result.1 && !bucket.stopped then tokens else 0, result.2)
  | .consumeChunk tokens now => (bucket.consumeChunk tokens now).map fun result =>
    (if result.1.isNone && !bucket.stopped then tokens else 0, result.2)
  | .stop _ => some (0, bucket.stop)

/-- Calls one after another, with the moments and tokens of what was taken. -/
def run : TokenBucket → List BucketCall → Option (List (Nat × Nat) × TokenBucket)
  | bucket, [] => some ([], bucket)
  | bucket, call :: calls => (bucket.call call).bind fun result =>
    (run result.2 calls).map fun rest => ((call.now, result.1) :: rest.1, rest.2)

/-- The account of the bucket over one call: left alone, or earned up to the moment of the call and
spent from. -/
def Accounts (after : TokenBucket) (now taken : Nat) : Prop :=
  let earned := bucket.state.account.advance (nanosPerSecond * bucket.config.capacity)
    bucket.config.fillRate now
  (taken = 0 ∧ after.state = bucket.state) ∨
    (nanosPerSecond * taken ≤ earned.credit ∧
      after.state.account = earned.spend (nanosPerSecond * taken))

/-- Taking tokens that are there does not underflow. -/
theorem take_spec (valid : state.Valid bucket.config)
    {tokens : Nat} (available : tokens ≤ state.availableTokens) :
    ∃ after, bucket.take state tokens = some after ∧ after.config = bucket.config ∧
      after.state.Valid bucket.config ∧ nanosPerSecond * tokens ≤ state.account.credit ∧
      after.state.account = state.account.spend (nanosPerSecond * tokens) := by
  have credit := valid.credit
  rw [take, checkedSub_of_le available]
  refine ⟨_, rfl, rfl, ⟨valid.remainder, ?_⟩, ?_, ?_⟩
  · simp only [account, nanosPerSecond] at credit ⊢
    omega
  · simp only [account, nanosPerSecond]
    omega
  · simp only [account, spend, nanosPerSecond, CreditAccount.mk.injEq, and_true]
    omega

/-- Every call goes through, keeps the state valid and accounts for what it takes. -/
theorem call_spec {bucket : TokenBucket} (valid : bucket.state.Valid bucket.config)
    (call : BucketCall) :
    ∃ taken after, bucket.call call = some (taken, after) ∧ after.config = bucket.config ∧
      after.state.Valid bucket.config ∧ bucket.Accounts after call.now taken := by
  cases call with
  | stop now => exact ⟨0, _, rfl, rfl, valid, .inl ⟨rfl, rfl⟩⟩
  | tryConsume tokens now =>
    simp only [TokenBucket.call, tryConsume, BucketCall.now]
    cases stopped : bucket.stopped with
    | true => exact ⟨0, bucket, by simp, rfl, valid, .inl ⟨rfl, rfl⟩⟩
    | false =>
      by_cases oversized : bucket.config.capacity < tokens
      · exact ⟨0, bucket, by simp [oversized], rfl, valid, .inl ⟨rfl, rfl⟩⟩
      obtain ⟨state, refilled, stateValid, earned⟩ := refill_spec valid now
      by_cases short : state.availableTokens < tokens
      · exact ⟨0, { bucket with state := state }, by simp [oversized, refilled, short, stopped],
          rfl, stateValid, .inr ⟨Nat.zero_le _, earned⟩⟩
      · obtain ⟨after, taken, sameConfig, afterValid, affords, spent⟩ :=
          bucket.take_spec stateValid (Nat.not_lt.mp short)
        rw [earned] at affords spent
        exact ⟨tokens, after, by simp [oversized, refilled, short, taken], sameConfig, afterValid,
          .inr ⟨affords, spent⟩⟩
  | consumeChunk tokens now =>
    simp only [TokenBucket.call, consumeChunk, BucketCall.now]
    cases stopped : bucket.stopped with
    | true => exact ⟨0, bucket, by simp, rfl, valid, .inl ⟨rfl, rfl⟩⟩
    | false =>
      obtain ⟨state, refilled, stateValid, earned⟩ := refill_spec valid now
      by_cases enough : tokens ≤ state.availableTokens
      · obtain ⟨after, taken, sameConfig, afterValid, affords, spent⟩ :=
          bucket.take_spec stateValid enough
        rw [earned] at affords spent
        exact ⟨tokens, after, by simp [refilled, enough, taken], sameConfig, afterValid,
          .inr ⟨affords, spent⟩⟩
      · -- the deficit is at least one token, which is more than the remainder
        have remainder := stateValid.remainder
        have covered : state.refillRemainder ≤
            (tokens - state.availableTokens) * nanosPerSecond := by
          simp only [nanosPerSecond] at remainder ⊢
          omega
        refine ⟨0, { bucket with state := state }, ?_, rfl, stateValid,
          .inr ⟨Nat.zero_le _, earned⟩⟩
        simp [refilled, enough, stopped, checkedSub_of_le (Nat.le_of_not_le enough),
          checkedSub_of_le covered]

theorem run_spec {bucket : TokenBucket} (valid : bucket.state.Valid bucket.config)
    (calls : List BucketCall) :
    ∃ log after, bucket.run calls = some (log, after) ∧ after.config = bucket.config ∧
      after.state.Valid bucket.config ∧ log.map (·.1) = calls.map (·.now) ∧
      CreditAccount.Spends (nanosPerSecond * bucket.config.capacity) bucket.config.fillRate
        bucket.state.account (log.map fun entry => (entry.1, nanosPerSecond * entry.2))
        after.state.account := by
  induction calls generalizing bucket with
  | nil => exact ⟨[], bucket, rfl, rfl, valid, rfl, .done _⟩
  | cons call calls ih =>
    obtain ⟨taken, middle, called, sameConfig, middleValid, accounts⟩ := call_spec valid call
    obtain ⟨log, after, ran, afterConfig, afterValid, times, spends⟩ :=
      ih (sameConfig ▸ middleValid)
    rw [sameConfig] at afterConfig afterValid spends
    refine ⟨(call.now, taken) :: log, after, by simp [run, called, ran], afterConfig, afterValid,
      by simp [times], ?_⟩
    rcases accounts with ⟨rfl, sameState⟩ | ⟨affords, spent⟩
    · rw [sameState] at spends
      exact .idle call.now spends
    · rw [spent] at spends
      exact .take affords spends

theorem valid_newFromCfg (config : BucketConfig) (now : Nat) :
    (newFromCfg config now).state.Valid (newFromCfg config now).config where
  remainder := show 0 < nanosPerSecond by decide
  credit := by simp [newFromCfg, account]

/-- From its creation on, a bucket neither creates nor loses credit and hands out no more than its
capacity and what the time is worth. -/
theorem token_bucket_exact (config : BucketConfig) (created : Nat) (calls : List BucketCall) :
    ∃ log bucket, (newFromCfg config created).run calls = some (log, bucket) ∧
      bucket.state.availableTokens ≤ bucket.config.capacity ∧
      bucket.state.refillRemainder < nanosPerSecond ∧
      (∀ now, ∃ after, refill bucket.config bucket.state now = some after ∧
        nanosPerSecond * after.availableTokens + after.refillRemainder =
          min (nanosPerSecond * bucket.config.capacity)
            (nanosPerSecond * bucket.state.availableTokens + bucket.state.refillRemainder +
              bucket.config.fillRate * (now - bucket.state.lastRefill))) ∧
      (∀ times now, (∀ time ∈ times, time ≤ now) →
        (refills bucket.config bucket.state times).bind (refill bucket.config · now) =
          refill bucket.config bucket.state now) ∧
      ((calls.map (·.now)).Pairwise (· ≤ ·) → ∀ start span,
        spentWithin log start span ≤
          bucket.config.capacity + bucket.config.fillRate * span / nanosPerSecond) := by
  obtain ⟨log, bucket, ran, sameConfig, valid, times, spends⟩ :=
    run_spec (valid_newFromCfg config created) calls
  rw [← sameConfig] at valid spends
  refine ⟨log, bucket, ran, valid.available_le, valid.remainder, ?_, ?_, ?_⟩
  · intro now
    obtain ⟨after, refilled, _, earned⟩ := refill_spec valid now
    exact ⟨after, refilled, congrArg credit earned⟩
  · intro times now before
    exact refills_then_refill valid before
  · intro ordered start span
    have logOrdered : (log.map fun entry => (entry.1, nanosPerSecond * entry.2)).Pairwise
        (·.1 ≤ ·.1) := by
      rw [← times, List.pairwise_map] at ordered
      rw [List.pairwise_map]
      exact ordered
    have bound := spends.spentWithin_le logOrdered start span
    rw [spentWithin_scaled] at bound
    have held : ((newFromCfg config created).state.account.advance
        (nanosPerSecond * bucket.config.capacity) bucket.config.fillRate start).credit ≤
        nanosPerSecond * bucket.config.capacity := Nat.min_le_left _ _
    have earned : bucket.config.fillRate * (start + span -
        max (newFromCfg config created).state.account.since start) ≤
        bucket.config.fillRate * span := Nat.mul_le_mul_left _ (by omega)
    simp only [nanosPerSecond] at *
    omega

end TokenBucket

end EasyTier.Foundation
