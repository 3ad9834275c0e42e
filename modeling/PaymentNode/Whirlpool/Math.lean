import Mathlib.Data.Fin.Basic
import PaymentNode.Basic

/-!
# Whirlpool quote — the exact-input swap from token A to token B

Translated from `src/swap/orca-solana/math.ts` and the account records of `accounts.ts`.  Token amounts,
prices and liquidity are unsigned on chain and are naturals here; a tick and a tick's `liquidityNet` carry a
sign.  A decoded tick array always has 88 slots.  The texts of the quote are `toString` of the numbers kept
here.
-/

namespace PaymentNode.Whirlpool

def tickArraySize : ℕ := 88

structure WhirlpoolState where
  address : String
  tickSpacing : ℕ
  feeRate : ℕ
  liquidity : ℕ
  sqrtPrice : ℕ
  tickCurrentIndex : ℤ
deriving DecidableEq

structure TickState where
  initialized : Bool
  liquidityNet : ℤ
deriving DecidableEq

structure TickArrayState where
  startTickIndex : ℤ
  whirlpool : String
  ticks : Vector TickState tickArraySize

def q64 : ℕ := 2 ^ 64
def u64Max : ℕ := 2 ^ 64 - 1
def u128Max : ℕ := 2 ^ 128 - 1
def u256Max : ℕ := 2 ^ 256 - 1
def feeRateDenominator : ℕ := 1000000
def whirlpoolMinSqrtPrice : ℕ := 4295048016
def minTick : ℤ := -443636
def maxTick : ℤ := 443636
def maxSteps : ℕ := 16

/-! ## Prices of ticks -/

/-- `sqrt(1.0001)^(2^i)` in Q96. -/
def positiveTickFactors : List (ℕ × ℕ) :=
  [(2, 79236085330515764027303304731), (4, 79244008939048815603706035061), (8, 79259858533276714757314932305),
    (16, 79291567232598584799939703904), (32, 79355022692464371645785046466),
    (64, 79482085999252804386437311141), (128, 79736823300114093921829183326),
    (256, 80248749790819932309965073892), (512, 81282483887344747381513967011),
    (1024, 83390072131320151908154831281), (2048, 87770609709833776024991924138),
    (4096, 97234110755111693312479820773), (8192, 119332217159966728226237229890),
    (16384, 179736315981702064433883588727), (32768, 407748233172238350107850275304),
    (65536, 2098478828474011932436660412517), (131072, 55581415166113811149459800483533),
    (262144, 38992368544603139932233054999993551)]

/-- `sqrt(1.0001)^-(2^i)` in Q64.64. -/
def negativeTickFactors : List (ℕ × ℕ) :=
  [(2, 18444899583751176498), (4, 18443055278223354162), (8, 18439367220385604838), (16, 18431993317065449817),
    (32, 18417254355718160513), (64, 18387811781193591352), (128, 18329067761203520168),
    (256, 18212142134806087854), (512, 17980523815641551639), (1024, 17526086738831147013),
    (2048, 16651378430235024244), (4096, 15030750278693429944), (8192, 12247334978882834399),
    (16384, 8131365268884726200), (32768, 3584323654723342297), (65536, 696457651847595233),
    (131072, 26294789957452057), (262144, 37481735321082)]

def positiveRatio (tick : ℕ) : ℕ :=
  positiveTickFactors.foldl (fun ratio row => if tick &&& row.1 ≠ 0 then (ratio * row.2) >>> 96 else ratio)
    (if tick &&& 1 ≠ 0 then 79232123823359799118286999567 else 79228162514264337593543950336)

def negativeRatio (absolute : ℕ) : ℕ :=
  negativeTickFactors.foldl (fun ratio row => if absolute &&& row.1 ≠ 0 then (ratio * row.2) >>> 64 else ratio)
    (if absolute &&& 1 ≠ 0 then 18445821805675392311 else q64)

def sqrtPriceAtTick (tick : ℤ) : Result ℕ :=
  if maxTick < tick ∨ tick < minTick then blocked "Whirlpool tick is outside the protocol range."
  else if 0 ≤ tick then .ok (positiveRatio tick.toNat >>> 32)
  else .ok (negativeRatio (-tick).toNat)

/-- Start tick of the array holding `tick`. -/
def tickArrayStart (tick : ℤ) (spacing : ℕ) : ℤ :=
  tick / (tickArraySize * spacing) * (tickArraySize * spacing)

/-! ## One step -/

def divideUp (numerator denominator : ℕ) : ℕ := (numerator + denominator - 1) / denominator

def checkedU64 (value : ℕ) : Result ℕ :=
  if u64Max < value then blocked "Whirlpool amount left u64." else .ok value

/-- `sqrtPrice^2 / 2^128` is token B atomic per token A atomic. -/
def spotOutput (amountA sqrtPrice : ℕ) : ℕ := amountA * sqrtPrice * sqrtPrice / (q64 * q64)

def deltaA (first second liquidity : ℕ) (roundUp : Bool) : Result ℕ :=
  let lower := min first second
  let upper := max first second
  let numerator := (liquidity * (upper - lower)) <<< 64
  let denominator := upper * lower
  if u256Max < numerator ∨ denominator = 0 then blocked "Whirlpool token A delta overflowed."
  else
    let result := if roundUp then divideUp numerator denominator else numerator / denominator
    if u128Max < result then blocked "Whirlpool token A delta overflowed." else .ok result

def deltaB (first second liquidity : ℕ) : Result ℕ :=
  let product := liquidity * (max first second - min first second)
  if u128Max < product then blocked "Whirlpool token B delta overflowed." else .ok (product >>> 64)

def nextSqrtPriceFromAInput (price liquidity amount : ℕ) : Result ℕ :=
  if amount = 0 then .ok price
  else
    let numerator := (liquidity * price) <<< 64
    let denominator := (liquidity <<< 64) + price * amount
    if u256Max < numerator ∨ u256Max < denominator then blocked "Whirlpool next price overflowed."
    else
      let next := divideUp numerator denominator
      if next < whirlpoolMinSqrtPrice then blocked "Whirlpool next price is below the protocol minimum."
      else .ok next

structure SwapStep where
  amountIn : ℕ
  amountOut : ℕ
  fee : ℕ
  nextPrice : ℕ
deriving DecidableEq

def stepExceeded : ApnError :=
  ⟨.operationBlocked, "Whirlpool swap step exceeded the remaining input."⟩

/-- What is left of `remaining` after the fee, rounded down. -/
def afterFee (remaining fee : ℕ) : ℕ := remaining * (feeRateDenominator - fee) / feeRateDenominator

def stepPrice (fixedToTarget calculated liquidity current target : ℕ) : Result ℕ :=
  if fixedToTarget ≤ calculated then .ok target else nextSqrtPriceFromAInput current liquidity calculated

def stepInput (fixedToTarget liquidity current nextPrice target : ℕ) : Result ℕ :=
  if nextPrice = target then .ok fixedToTarget else deltaA current nextPrice liquidity true

/-- `computeSwapStep_ok` shows that the difference is never below zero. -/
def stepFee (remaining amountIn fee nextPrice target : ℕ) : Result ℕ :=
  if nextPrice ≠ target then .ok (remaining - amountIn)
  else checkedU64 (divideUp (amountIn * fee) (feeRateDenominator - fee))

def computeSwapStep (remaining fee liquidity current target : ℕ) : Result SwapStep := do
  let fixedToTarget ← deltaA current target liquidity true
  let nextPrice ← stepPrice fixedToTarget (afterFee remaining fee) liquidity current target
  let delta ← stepInput fixedToTarget liquidity current nextPrice target
  let amountIn ← checkedU64 delta
  let out ← deltaB current nextPrice liquidity
  let amountOut ← checkedU64 out
  let charged ← stepFee remaining amountIn fee nextPrice target
  if remaining < amountIn + charged then .error stepExceeded else .ok ⟨amountIn, amountOut, charged, nextPrice⟩

/-! ## The next initialized tick -/

structure NextTick where
  arrayIndex : ℕ
  tick : ℤ
  sequenceEnd : Bool
deriving DecidableEq

theorem offset_lt {search lower : ℤ} {spacing : ℕ}
    (h : ¬ (search < lower ∨ lower + tickArraySize * spacing ≤ search)) :
    ((search - lower) / spacing).toNat < tickArraySize := by
  have hupper : search - lower < tickArraySize * spacing := by omega
  have hquotient : (search - lower) / spacing < tickArraySize := by
    rcases Nat.eq_zero_or_pos spacing with rfl | hpos
    · simp only [Nat.cast_zero, Int.ediv_zero]
      decide
    · exact Int.ediv_lt_of_lt_mul (by omega) hupper
  have hsize : (tickArraySize : ℤ) = 88 := rfl
  unfold tickArraySize at *
  omega

/-- The highest initialized slot from `offset` down. -/
def TickArrayState.initializedFrom (array : TickArrayState) : (offset : ℕ) → offset < tickArraySize → Option ℕ
  | 0, h => if (array.ticks.get ⟨0, h⟩).initialized then some 0 else none
  | offset + 1, h =>
    if (array.ticks.get ⟨offset + 1, h⟩).initialized then some (offset + 1)
    else array.initializedFrom offset (Nat.lt_of_succ_lt h)

def searchArrays (spacing : ℕ) : List TickArrayState → ℕ → ℤ → Result NextTick
  | [], _, _ => blocked "Whirlpool search left the passed tick arrays."
  | array :: rest, index, search =>
    if h : search < array.startTickIndex ∨ array.startTickIndex + tickArraySize * spacing ≤ search then
      blocked "Whirlpool search left the passed tick array."
    else
      match array.initializedFrom ((search - array.startTickIndex) / spacing).toNat (offset_lt h) with
      | some offset => .ok ⟨index, array.startTickIndex + offset * spacing, false⟩
      | none =>
        if rest.isEmpty then .ok ⟨index, array.startTickIndex, true⟩
        else searchArrays spacing rest (index + 1) (array.startTickIndex - 1)

def nextInitializedTick (arrays : List TickArrayState) (tick : ℤ) (spacing start : ℕ) : Result NextTick :=
  searchArrays spacing (arrays.drop start) start tick

/-- Highest tick whose price is at or below `price`, searched downward from the previous tick. -/
def tickAtOrBelow (price : ℕ) : ℕ → ℤ → Result ℤ
  | 0, _ => blocked "Whirlpool tick recovery exceeded its bound."
  | guard + 1, tick => do
    let at' ← sqrtPriceAtTick tick
    if at' ≤ price then .ok tick else tickAtOrBelow price guard (tick - 1)

def recoveryBound : ℕ := 4096

/-! ## The swap loop -/

/-- What the loop carries beside the place of its search. -/
structure SwapCore where
  remaining : ℕ
  output : ℕ
  feeTotal : ℕ
  price : ℕ
  tick : ℤ
  liquidity : ℕ
  steps : ℕ
  crossed : ℕ
deriving DecidableEq

structure SwapState extends SwapCore where
  arrayIndex : ℕ
deriving DecidableEq

/-- `arrays[next.arrayIndex]!.ticks[(next.tick - start) / spacing]!` -/
def rowAt (arrays : List TickArrayState) (spacing : ℕ) (next : NextTick) : Result TickState :=
  match arrays[next.arrayIndex]? with
  | none => corrupt "Cannot read properties of undefined (reading 'ticks')"
  | some array =>
    match array.ticks[((next.tick - array.startTickIndex) / spacing).toNat]? with
    | none => corrupt "Cannot read properties of undefined (reading 'initialized')"
    | some row => .ok row

/-- A tick that is reached is crossed, and the swap goes on below it. -/
def crossTick (s : SwapCore) (tick : ℤ) (row : TickState) : Result SwapCore :=
  let liquidity := if row.initialized then (s.liquidity : ℤ) - row.liquidityNet else s.liquidity
  if liquidity < 0 ∨ (u128Max : ℤ) < liquidity then
    blocked "Whirlpool liquidity left its bounds while crossing a tick."
  else .ok { s with
    liquidity := liquidity.toNat
    crossed := if row.initialized then s.crossed + 1 else s.crossed
    tick := tick - 1 }

/-- Where a step that ends at `nextPrice` leaves the tick. -/
def arrive (s : SwapCore) (nextPrice target : ℕ) (tick : ℤ) (row : Result TickState) : Result SwapCore :=
  if nextPrice = target then do
    let row ← row
    crossTick s tick row
  else if nextPrice ≠ s.price then do
    let tick ← tickAtOrBelow nextPrice recoveryBound s.tick
    return { s with tick := tick }
  else .ok s

/-- The rest of one turn of the loop, once the next tick is found. -/
def moveTo (fee : ℕ) (s : SwapCore) (tick : ℤ) (sequenceEnd : Bool) (row : Result TickState) : Result SwapCore := do
  let target ← sqrtPriceAtTick tick
  let step ← computeSwapStep s.remaining fee s.liquidity s.price target
  if sequenceEnd ∧ step.nextPrice = target then blocked "The swap would reach the end of the passed tick arrays."
  else do
    let output ← checkedU64 (s.output + step.amountOut)
    let arrived ← arrive s step.nextPrice target tick row
    let remaining := s.remaining - (step.amountIn + step.fee)
    if arrived.liquidity = 0 ∧ 0 < remaining then blocked "Whirlpool has no liquidity for the rest of this swap."
    else .ok { arrived with
      remaining := remaining
      output := output
      feeTotal := s.feeTotal + step.fee
      price := step.nextPrice
      steps := s.steps + 1 }

variable (pool : WhirlpoolState)

def swapTurn (arrays : List TickArrayState) (s : SwapState) : Result SwapState := do
  let next ← nextInitializedTick arrays s.tick pool.tickSpacing s.arrayIndex
  let moved ← moveTo pool.feeRate s.toSwapCore next.tick next.sequenceEnd (rowAt arrays pool.tickSpacing next)
  return ⟨moved, next.arrayIndex⟩

/-- `while (remaining > 0n)`, with the number of steps still allowed. -/
def swapLoop (pool : WhirlpoolState) (arrays : List TickArrayState) : ℕ → SwapState → Result SwapState
  | allowed, s =>
    if s.remaining = 0 then .ok s
    else match allowed with
      | 0 => blocked "Whirlpool swap crosses too many ticks for this bounded quote."
      | allowed + 1 => do
        let next ← swapTurn pool arrays s
        swapLoop pool arrays allowed next

/-! ## The quote -/

/-- The maximum tick is a single endpoint price; all lower ticks have a half-open interval. -/
def priceAtTick : Result Bool :=
  if pool.tickCurrentIndex = maxTick then do
    let top ← sqrtPriceAtTick maxTick
    return pool.sqrtPrice = top
  else do
    let low ← sqrtPriceAtTick pool.tickCurrentIndex
    if pool.sqrtPrice < low then return false
    else do
      let high ← sqrtPriceAtTick (pool.tickCurrentIndex + 1)
      return pool.sqrtPrice < high

/-- The exact downward sequence from the current tick, each array the pool's own. -/
def Downward (arrays : List TickArrayState) : Prop :=
  ∀ row ∈ arrays.zipIdx, row.1.startTickIndex =
      tickArrayStart pool.tickCurrentIndex pool.tickSpacing - row.2 * (tickArraySize * pool.tickSpacing) ∧
    row.1.whirlpool = pool.address

instance (pool : WhirlpoolState) (arrays : List TickArrayState) : Decidable (Downward pool arrays) :=
  inferInstanceAs (Decidable (∀ row ∈ arrays.zipIdx, _ ∧ _))

/-- The checks on the arguments, before the loop. -/
def admitSwap (arrays : List TickArrayState) (amountIn : ℕ) : Result Unit :=
  if amountIn = 0 ∨ u64Max < amountIn then blocked "Whirlpool input must be a positive u64."
  else if arrays.length ≠ 3 then blocked "Whirlpool swap requires exactly three tick arrays."
  else if pool.tickSpacing = 0 ∨ feeRateDenominator ≤ pool.feeRate ∨ pool.liquidity = 0 ∨
      u128Max < pool.liquidity then blocked "Whirlpool state is not swappable."
  else if ¬ Downward pool arrays then
    blocked "Whirlpool tick arrays are not the exact downward sequence from the current tick."
  else do
    let consistent ← priceAtTick pool
    if consistent then .ok () else blocked "Whirlpool price and current tick are inconsistent."

def startCore (amountIn : ℕ) : SwapCore :=
  ⟨amountIn, 0, 0, pool.sqrtPrice, pool.tickCurrentIndex, pool.liquidity, 0, 0⟩

structure WhirlpoolSwapQuote where
  amountInAtomic : ℕ
  amountOutAtomic : ℕ
  feeAtomic : ℕ
  sqrtPriceBefore : ℕ
  sqrtPriceAfter : ℕ
  tickBefore : ℤ
  tickAfter : ℤ
  steps : ℕ
  initializedTicksCrossed : ℕ
  spotOutputAfterFeeAtomic : ℕ
  spotOutputPerSolAtomic : ℕ
  priceImpactBps : ℕ
deriving DecidableEq

/-- `spot > output ? spot - output : 0n` -/
def shortfall (spot output : ℕ) : ℕ := if output < spot then spot - output else 0

def impact (spot output : ℕ) : ℕ :=
  if spot = 0 then 10000 else (shortfall spot output * 10000 + spot - 1) / spot

def finishQuote (amountIn : ℕ) (s : SwapCore) : Result WhirlpoolSwapQuote :=
  if s.output = 0 then blocked "Whirlpool quote returned no output."
  else
    let spot := spotOutput (afterFee amountIn pool.feeRate) pool.sqrtPrice
    .ok {
      amountInAtomic := amountIn
      amountOutAtomic := s.output
      feeAtomic := s.feeTotal
      sqrtPriceBefore := pool.sqrtPrice
      sqrtPriceAfter := s.price
      tickBefore := pool.tickCurrentIndex
      tickAfter := s.tick
      steps := s.steps
      initializedTicksCrossed := s.crossed
      spotOutputAfterFeeAtomic := spot
      spotOutputPerSolAtomic := spotOutput 1000000000 pool.sqrtPrice
      priceImpactBps := min (impact spot s.output) 10000 }

def quoteWhirlpoolExactInAToB (arrays : List TickArrayState) (amountIn : ℕ) :
    Result WhirlpoolSwapQuote := do
  admitSwap pool arrays amountIn
  let last ← swapLoop pool arrays maxSteps ⟨startCore pool amountIn, 0⟩
  finishQuote pool amountIn last.toSwapCore

end PaymentNode.Whirlpool
