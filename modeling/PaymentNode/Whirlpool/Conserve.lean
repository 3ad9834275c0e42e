import PaymentNode.Lib.Runs
import PaymentNode.Whirlpool.Flat

/-!
# Whirlpool quotes — what a quote takes, and how little it gives

Along the turns of the loop the input taken, the fees and the input left add up to the input, the price only
falls, and the output stays at or below what the input taken is worth at the first price.  Two inputs go the
same way until the smaller one is used up.
-/

namespace PaymentNode.Whirlpool

section

variable {pool : WhirlpoolState} {arrays : List TickArrayState}

/-! ## The turns of the loop -/

/-- One turn of the loop and the step it takes. -/
def SwapTurn (pool : WhirlpoolState) (arrays : List TickArrayState) (s : SwapState) (step : SwapStep)
    (t : SwapState) : Prop :=
  swapTurn pool arrays s = .ok t ∧ ∃ next target,
    nextInitializedTick arrays s.tick pool.tickSpacing s.arrayIndex = .ok next ∧
      sqrtPriceAtTick next.tick = .ok target ∧
        computeSwapStep s.remaining pool.feeRate s.liquidity s.price target = .ok step

theorem swapTurn_ok {s t : SwapState} (h : swapTurn pool arrays s = .ok t) :
    ∃ next target step, nextInitializedTick arrays s.tick pool.tickSpacing s.arrayIndex = .ok next ∧
      t.arrayIndex = next.arrayIndex ∧ Moves pool.feeRate s.toSwapCore next.tick next.sequenceEnd
        (rowAt arrays pool.tickSpacing next) target step t.toSwapCore := by
  unfold swapTurn at h
  simp only [bind_ok] at h
  rcases h with ⟨next, hnext, moved, hmoved, hlast⟩
  have hlast := Except.ok.inj hlast
  subst hlast
  rcases moveTo_ok hmoved with ⟨target, step, hmoves⟩
  exact ⟨next, target, step, hnext, rfl, hmoves⟩

theorem swapLoop_run : ∀ {allowed : ℕ} {s t : SwapState}, swapLoop pool arrays allowed s = .ok t →
    t.remaining = 0 ∧ ∃ steps, Runs.Run (SwapTurn pool arrays) s steps t
  | 0, s, t, h => by
    rw [swapLoop] at h
    by_cases hdone : s.remaining = 0
    · rw [if_pos hdone] at h
      cases h
      exact ⟨hdone, [], Runs.Run.refl⟩
    · rw [if_neg hdone] at h
      cases h
  | allowed + 1, s, t, h => by
    rw [swapLoop] at h
    by_cases hdone : s.remaining = 0
    · rw [if_pos hdone] at h
      cases h
      exact ⟨hdone, [], Runs.Run.refl⟩
    · rw [if_neg hdone] at h
      rcases bind_ok.mp h with ⟨next, hturn, hrest⟩
      rcases swapTurn_ok hturn with ⟨found, target, step, hfound, -, hmoves⟩
      rcases swapLoop_run hrest with ⟨hend, steps, hrun⟩
      exact ⟨hend, step :: steps, Runs.Run.cons ⟨hturn, found, target, hfound, hmoves.priced, hmoves.stepped⟩ hrun⟩

-- A search that succeeds began in the array of its tick, and ends at or above the start of some array.
theorem nextInitializedTick_bounds {tick : ℤ} {start : ℕ} {next : NextTick} (hspacing : 0 < pool.tickSpacing)
    (hchain : Consecutive pool.tickSpacing arrays)
    (h : nextInitializedTick arrays tick pool.tickSpacing start = .ok next) :
    next.tick ≤ tick ∧ ∃ array ∈ arrays, array.startTickIndex ≤ next.tick := by
  have hhead : ∃ array, arrays[start]? = some array ∧ array.Covers pool.tickSpacing tick := by
    unfold nextInitializedTick at h
    cases hdrop : arrays.drop start with
    | nil => rw [hdrop] at h; cases h
    | cons array rest =>
      rw [hdrop, searchArrays] at h
      by_cases hrange : tick < array.startTickIndex ∨ array.startTickIndex + tickArraySize * pool.tickSpacing ≤ tick
      · rw [dif_pos hrange] at h
        cases h
      · refine ⟨array, ?_, by constructor <;> omega⟩
        rw [← List.head?_drop, hdrop]
        rfl
  rcases hhead with ⟨array, harray, hcovers⟩
  rcases nextInitializedTick_found hspacing hchain harray hcovers with ⟨other, found, offset, hother, hfound⟩
  have hsame : other = next := Except.ok.inj (hother.symm.trans h)
  subst hsame
  rcases hfound.place with ⟨k, -, hplace⟩
  have hspan : (0 : ℤ) ≤ (offset : ℕ) * pool.tickSpacing := by positivity
  have hat := hfound.tick
  exact ⟨hfound.le, found, List.mem_of_getElem? hplace, by omega⟩

/-! ## What a run of turns adds up to -/

def q128 : ℕ := q64 * q64

/-- The sums over the steps taken from the start of a swap of `amountIn`. -/
structure Balanced (pool : WhirlpoolState) (arrays : List TickArrayState) (amountIn : ℕ) (steps : List SwapStep)
    (s : SwapCore) : Prop where
  taken : (steps.map (·.amountIn)).sum + s.feeTotal + s.remaining = amountIn
  fees : (steps.map (·.fee)).sum = s.feeTotal
  paid : (steps.map (·.amountOut)).sum = s.output
  -- the fee of every step leaves its input at or below the after-fee share
  net : (steps.map (·.amountIn)).sum * feeRateDenominator ≤
    ((steps.map (·.amountIn)).sum + s.feeTotal) * (feeRateDenominator - pool.feeRate)
  worth : s.output * q128 ≤ (steps.map (·.amountIn)).sum * (pool.sqrtPrice * pool.sqrtPrice)
  falls : (pool.sqrtPrice :: steps.map (·.nextPrice)).Pairwise (· ≥ ·)
  last : s.price = (pool.sqrtPrice :: steps.map (·.nextPrice)).getLast (List.cons_ne_nil _ _)
  least : ∀ price ∈ pool.sqrtPrice :: steps.map (·.nextPrice), s.price ≤ price
  above : PriceAbove s
  floor : ∀ low price, (∀ array ∈ arrays, low ≤ array.startTickIndex) → sqrtPriceAtTick low = .ok price →
    price ≤ s.price

-- What a step gives is worth no more than it takes, at any price at or above its own.
theorem output_worth {liquidity high low amount best : ℕ} (hle : low ≤ high) (hbest : high ≤ best)
    (hpos : 0 < high * low) (hamount : amount = inputBetween liquidity high low) :
    outputBetween liquidity high low * q128 ≤ amount * (best * best) := by
  have hout : outputBetween liquidity high low * q64 ≤ liquidity * (high - low) := Nat.div_mul_le_self _ _
  have hin : liquidity * (high - low) * q64 ≤ high * low * amount := by
    rw [hamount]
    exact le_mul_divideUp _ hpos
  calc outputBetween liquidity high low * q128
      = outputBetween liquidity high low * q64 * q64 := by rw [q128, Nat.mul_assoc]
    _ ≤ liquidity * (high - low) * q64 := Nat.mul_le_mul_right _ hout
    _ ≤ high * low * amount := hin
    _ ≤ best * best * amount := Nat.mul_le_mul_right _ (Nat.mul_le_mul hbest (hle.trans hbest))
    _ = amount * (best * best) := Nat.mul_comm _ _

theorem net_of_fits {remaining fee amount : ℕ} (h : amount ≤ afterFee remaining fee) :
    amount * feeRateDenominator ≤ remaining * (feeRateDenominator - fee) :=
  (Nat.le_div_iff_mul_le (by decide)).mp h

theorem net_of_charged {fee amount charged : ℕ} (hfee : fee < feeRateDenominator)
    (h : charged = divideUp (amount * fee) (feeRateDenominator - fee)) :
    amount * feeRateDenominator ≤ (amount + charged) * (feeRateDenominator - fee) := by
  have hcharged : amount * fee ≤ (feeRateDenominator - fee) * charged := by
    rw [h]
    exact le_mul_divideUp _ (by omega)
  obtain ⟨net, hnet⟩ : ∃ net, feeRateDenominator = net + fee := ⟨feeRateDenominator - fee, by omega⟩
  rw [hnet, Nat.add_sub_cancel] at hcharged ⊢
  nlinarith

variable {amountIn : ℕ}

theorem balanced_start (h : Admitted pool arrays amountIn) :
    Balanced pool arrays amountIn [] (startCore pool amountIn) where
  taken := by simp [startCore]
  fees := rfl
  paid := rfl
  net := by simp
  worth := by simp [startCore]
  falls := List.pairwise_singleton _ _
  last := rfl
  least := by simp [startCore]
  above := h.above
  floor := by
    intro low price hlow hprice
    rcases h.covers with ⟨array, harray, hcovers⟩
    exact h.above low price ((hlow array (List.mem_of_getElem? harray)).trans hcovers.1) hprice

theorem Balanced.turn {steps : List SwapStep} {step : SwapStep} {s t : SwapState}
    (hspacing : 0 < pool.tickSpacing) (hfee : pool.feeRate < feeRateDenominator)
    (hchain : Consecutive pool.tickSpacing arrays) (h : Balanced pool arrays amountIn steps s.toSwapCore)
    (hturn : SwapTurn pool arrays s step t) : Balanced pool arrays amountIn (steps ++ [step]) t.toSwapCore := by
  rcases hturn with ⟨hok, next, target, hnext, htarget, hstep⟩
  rcases swapTurn_ok hok with ⟨next', target', step', hnext', -, hmoves⟩
  rw [hnext] at hnext'
  have hsame := Except.ok.inj hnext'
  subst hsame
  have hsame : target' = target := Except.ok.inj (hmoves.priced.symm.trans htarget)
  subst hsame
  have hsame : step' = step := Except.ok.inj (hmoves.stepped.symm.trans hstep)
  subst hsame
  rcases nextInitializedTick_bounds hspacing hchain hnext with ⟨hle, lowest, hlowest, hfloor⟩
  have hbelow : target' ≤ s.price := h.above _ _ hle htarget
  rcases computeSwapStep_ok hbelow hstep with ⟨hpos, hcase⟩
  have hprice : s.price ≤ pool.sqrtPrice := h.least _ List.mem_cons_self
  -- The step reaches its target, or lands above it with its input spent.
  have hnextPrice : target' ≤ step'.nextPrice ∧ step'.nextPrice ≤ s.price := by
    rcases hcase with hreach | hland
    · rw [hreach.nextPrice]
      exact ⟨le_refl _, hbelow⟩
    · exact ⟨hland.above.le, hland.below⟩
  have htaken : step'.amountIn + step'.fee ≤ s.remaining := by
    rcases hcase with hreach | hland
    · exact hreach.taken_le hfee
    · exact hland.taken.le
  have hworth : step'.amountOut * q128 ≤ step'.amountIn * (pool.sqrtPrice * pool.sqrtPrice) := by
    rcases hcase with hreach | hland
    · rw [hreach.amountOut]
      exact output_worth hbelow hprice hpos hreach.amountIn
    · have habove := hland.above
      have hpositive : 0 < s.price * step'.nextPrice :=
        Nat.mul_pos (Nat.pos_of_mul_pos_right hpos) (by omega)
      rw [hland.amountOut]
      exact output_worth hland.below hprice hpositive hland.amountIn
  have hnet : step'.amountIn * feeRateDenominator ≤
      (step'.amountIn + step'.fee) * (feeRateDenominator - pool.feeRate) := by
    rcases hcase with hreach | hland
    · exact net_of_charged hfee hreach.fee
    · rw [hland.taken]
      exact net_of_fits hland.fits
  have hremaining := hmoves.remaining
  have hfeeTotal := hmoves.feeTotal
  have houtput := hmoves.output
  have hprices : pool.sqrtPrice :: (steps ++ [step']).map (·.nextPrice) =
      (pool.sqrtPrice :: steps.map (·.nextPrice)) ++ [step'.nextPrice] := by simp
  have hleast : ∀ price ∈ pool.sqrtPrice :: steps.map (·.nextPrice), step'.nextPrice ≤ price :=
    fun price hmem => hnextPrice.2.trans (h.least price hmem)
  -- Each total of the steps so far, with the last step added.
  refine ⟨?_, ?_, ?_, ?_, ?_, ?_, ?_, ?_, hmoves.priceAbove h.above hle, ?_⟩
  · have htotal := h.taken
    simp only [List.map_append, List.map_cons, List.map_nil, List.sum_append, List.sum_cons, List.sum_nil]
    omega
  · have hfees := h.fees
    simp only [List.map_append, List.map_cons, List.map_nil, List.sum_append, List.sum_cons, List.sum_nil]
    omega
  · have hpaid := h.paid
    simp only [List.map_append, List.map_cons, List.map_nil, List.sum_append, List.sum_cons, List.sum_nil]
    omega
  · have hsofar := h.net
    simp only [List.map_append, List.map_cons, List.map_nil, List.sum_append, List.sum_cons, List.sum_nil, hfeeTotal]
    nlinarith
  · have hsofar := h.worth
    simp only [List.map_append, List.map_cons, List.map_nil, List.sum_append, List.sum_cons, List.sum_nil, houtput]
    nlinarith
  · rw [hprices, List.pairwise_append]
    refine ⟨h.falls, List.pairwise_singleton _ _, fun price hmem last hlast => ?_⟩
    rw [List.mem_singleton] at hlast
    rw [hlast]
    exact hleast price hmem
  · simp [hmoves.price]
  · intro price hmem
    rw [hprices, List.mem_append, List.mem_singleton] at hmem
    rw [hmoves.price]
    rcases hmem with hmem | rfl
    · exact hleast price hmem
    · exact le_refl _
  · intro low price hlow hlowPrice
    rw [hmoves.price]
    exact (sqrtPriceAtTick_mono hlowPrice htarget ((hlow lowest hlowest).trans hfloor)).trans hnextPrice.1

theorem balanced_run {steps : List SwapStep} {t : SwapState} (h : Admitted pool arrays amountIn)
    (hrun : Runs.Run (SwapTurn pool arrays) ⟨startCore pool amountIn, 0⟩ steps t) :
    Balanced pool arrays amountIn steps t.toSwapCore := by
  induction hrun with
  | refl => exact balanced_start h
  | snoc _ hturn ih => exact ih.turn h.spacing h.fee h.chain hturn

/-! ## A larger input gives at least as much -/

theorem output_grows : ∀ {allowed : ℕ} {s t : SwapState}, swapLoop pool arrays allowed s = .ok t → s.output ≤ t.output
  | 0, s, t, h => by
    rw [swapLoop] at h
    by_cases hdone : s.remaining = 0
    · rw [if_pos hdone] at h
      cases h
      exact le_refl _
    · rw [if_neg hdone] at h
      cases h
  | allowed + 1, s, t, h => by
    rw [swapLoop] at h
    by_cases hdone : s.remaining = 0
    · rw [if_pos hdone] at h
      cases h
      exact le_refl _
    · rw [if_neg hdone] at h
      rcases bind_ok.mp h with ⟨next, hturn, hrest⟩
      rcases swapTurn_ok hturn with ⟨_, _, step, _, _, hmoves⟩
      have hmore := output_grows hrest
      have hout := hmoves.output
      omega

/-- Two swaps at the same place, the second with at least as much left and paid. -/
structure Ahead (s t : SwapState) : Prop where
  price : t.price = s.price
  tick : t.tick = s.tick
  liquidity : t.liquidity = s.liquidity
  arrayIndex : t.arrayIndex = s.arrayIndex
  remaining : s.remaining ≤ t.remaining
  output : s.output ≤ t.output

theorem afterFee_mono {a b fee : ℕ} (h : a ≤ b) : afterFee a fee ≤ afterFee b fee :=
  Nat.div_le_div_right (Nat.mul_le_mul_right _ h)

section TwoSteps

variable {a b fee liquidity current target : ℕ} {x y : SwapStep}

-- Where the smaller input reaches the target, the larger one takes the same step.
theorem Reaches.same (hab : a ≤ b) (hx : Reaches a fee liquidity current target x)
    (hy : Reaches b fee liquidity current target y ∨ Lands b fee liquidity current target y) : y = x := by
  rcases hy with hy | hy
  · have hin : y.amountIn = x.amountIn := by rw [hy.amountIn, hx.amountIn]
    have hout : y.amountOut = x.amountOut := by rw [hy.amountOut, hx.amountOut]
    have hfee : y.fee = x.fee := by rw [hy.fee, hx.fee, hin]
    have hprice : y.nextPrice = x.nextPrice := by rw [hy.nextPrice, hx.nextPrice]
    cases x; cases y
    simp only [SwapStep.mk.injEq]
    exact ⟨hin, hout, hfee, hprice⟩
  · have hfits := hx.fits
    rw [hx.amountIn] at hfits
    exact absurd (hfits.trans (afterFee_mono hab)) hy.short

-- Where the smaller input is used up, the larger one goes at least as far.
theorem Lands.output_le (hab : a ≤ b) (hx : Lands a fee liquidity current target x)
    (hy : Reaches b fee liquidity current target y ∨ Lands b fee liquidity current target y) :
    x.amountOut ≤ y.amountOut := by
  rw [hx.amountOut]
  rcases hy with hy | hy
  · rw [hy.amountOut]
    exact outputBetween_mono hx.above.le
  · rw [hy.amountOut]
    exact outputBetween_mono (pushed_anti (afterFee_mono hab) hx.pushed hy.pushed)

end TwoSteps

theorem swapLoop_done {allowed : ℕ} {s t : SwapState} (hdone : s.remaining = 0)
    (h : swapLoop pool arrays allowed s = .ok t) : t = s := by
  cases allowed <;> rw [swapLoop, if_pos hdone] at h <;> exact (Except.ok.inj h).symm

theorem swapLoop_turn {allowed : ℕ} {s t : SwapState} (hleft : s.remaining ≠ 0)
    (h : swapLoop pool arrays allowed s = .ok t) :
    ∃ fewer next, allowed = fewer + 1 ∧ swapTurn pool arrays s = .ok next ∧ swapLoop pool arrays fewer next = .ok t := by
  cases allowed with
  | zero => rw [swapLoop, if_neg hleft] at h; cases h
  | succ fewer =>
    rw [swapLoop, if_neg hleft] at h
    rcases bind_ok.mp h with ⟨next, hturn, hrest⟩
    exact ⟨fewer, next, rfl, hturn, hrest⟩

variable {row : Result TickState}

theorem crossed_liquidity {s : SwapCore} {nextPrice target : ℕ} {tick : ℤ} {t : SwapCore}
    (hreached : nextPrice = target) (h : arrive s nextPrice target tick row = .ok t) :
    ∃ found, row = .ok found ∧ t.liquidity =
      (if found.initialized then (s.liquidity : ℤ) - found.liquidityNet else s.liquidity).toNat := by
  unfold arrive at h
  rw [if_pos hreached, bind_ok] at h
  rcases h with ⟨found, hrow, hcross⟩
  unfold crossTick at hcross
  rw [blocked_guard] at hcross
  rw [← Except.ok.inj hcross.2]
  exact ⟨found, hrow, rfl⟩

-- Turns from the same place stay at the same place while the smaller input reaches its ticks.
theorem Ahead.turn {s s' u u' : SwapState} (hspacing : 0 < pool.tickSpacing)
    (hchain : Consecutive pool.tickSpacing arrays) (h : Ahead s s') (habove : PriceAbove s.toSwapCore)
    (hu : swapTurn pool arrays s = .ok u) (hu' : swapTurn pool arrays s' = .ok u') :
    PriceAbove u.toSwapCore ∧ (Ahead u u' ∨ u.remaining = 0 ∧ u.output ≤ u'.output) := by
  rcases swapTurn_ok hu with ⟨next, target, x, hnext, hindex, hmoves⟩
  rcases swapTurn_ok hu' with ⟨next', target', y, hnext', hindex', hmoves'⟩
  rw [h.tick, h.arrayIndex, hnext] at hnext'
  have hsame := Except.ok.inj hnext'
  subst hsame
  have hsame : target' = target := Except.ok.inj (hmoves'.priced.symm.trans hmoves.priced)
  subst hsame
  have hle := (nextInitializedTick_bounds hspacing hchain hnext).1
  have hle' : next.tick ≤ s'.tick := by rw [h.tick]; exact hle
  have hbelow : target' ≤ s.price := habove _ _ hle hmoves.priced
  have hstepped' := hmoves'.stepped
  rw [h.liquidity, h.price] at hstepped'
  have hy := (computeSwapStep_ok hbelow hstepped').2
  have hout := hmoves.output
  have hout' := hmoves'.output
  have hmore := h.output
  refine ⟨hmoves.priceAbove habove hle, ?_⟩
  rcases hmoves.cases habove hle with ⟨hreach, htick, hprice⟩ | ⟨hland, hdone⟩
  · left
    have hsame : y = x := hreach.same h.remaining hy
    subst hsame
    have hremaining := hmoves.remaining
    have hremaining' := hmoves'.remaining
    have hleft := h.remaining
    have htick' : u'.tick = next.tick - 1 := by
      rcases hmoves'.arrives with ⟨arrived, harrived, htick', -⟩
      unfold arrive at harrived
      rw [if_pos hreach.nextPrice, bind_ok] at harrived
      rcases harrived with ⟨_, -, hcross⟩
      rw [htick', crossTick_ok hcross]
    have hliquidity : u'.liquidity = u.liquidity := by
      rcases hmoves.arrives with ⟨arrived, harrived, -, hliq⟩
      rcases hmoves'.arrives with ⟨arrived', harrived', -, hliq'⟩
      rcases crossed_liquidity hreach.nextPrice harrived with ⟨row, hrow, hfound⟩
      rcases crossed_liquidity hreach.nextPrice harrived' with ⟨row', hrow', hfound'⟩
      have hsame : row' = row := Except.ok.inj (hrow'.symm.trans hrow)
      rw [hliq, hliq', hfound, hfound', hsame, h.liquidity]
    exact ⟨by rw [hmoves'.price, hmoves.price], by rw [htick', htick], hliquidity, by rw [hindex', hindex],
      by omega, by omega⟩
  · right
    have hgives : x.amountOut ≤ y.amountOut := hland.output_le h.remaining hy
    exact ⟨hdone, by omega⟩

theorem swapLoop_mono (hspacing : 0 < pool.tickSpacing) (hchain : Consecutive pool.tickSpacing arrays) {allowed : ℕ} :
    ∀ {more : ℕ} {s s' t t' : SwapState}, Ahead s s' → PriceAbove s.toSwapCore →
      swapLoop pool arrays allowed s = .ok t → swapLoop pool arrays more s' = .ok t' → t.output ≤ t'.output := by
  induction allowed with
  | zero =>
    intro more s s' t t' hahead _ ht ht'
    by_cases hdone : s.remaining = 0
    · rw [swapLoop_done hdone ht]
      exact hahead.output.trans (output_grows ht')
    · rw [swapLoop, if_neg hdone] at ht
      cases ht
  | succ allowed ih =>
    intro more s s' t t' hahead habove ht ht'
    by_cases hdone : s.remaining = 0
    · rw [swapLoop_done hdone ht]
      exact hahead.output.trans (output_grows ht')
    have hleft : s'.remaining ≠ 0 := by have hmore := hahead.remaining; omega
    rcases swapLoop_turn hdone ht with ⟨fewer, u, hfewer, hu, hrest⟩
    rcases swapLoop_turn hleft ht' with ⟨_, u', -, hu', hrest'⟩
    obtain rfl : allowed = fewer := by omega
    rcases hahead.turn hspacing hchain habove hu hu' with ⟨habove', hnext | ⟨hspent, hless⟩⟩
    · exact ih hnext habove' hrest hrest'
    · rw [swapLoop_done hspent hrest]
      exact hless.trans (output_grows hrest')

/-! ## The refusal of a step that takes too much -/

theorem sqrtPriceAtTick_spares (tick : ℤ) : Spares (sqrtPriceAtTick tick) :=
  Spares.ite (by simp [stepExceeded]) (Spares.ite spares_ok spares_ok)

theorem searchArrays_spares {spacing : ℕ} : ∀ {list : List TickArrayState} {index : ℕ} {tick : ℤ},
    Spares (searchArrays spacing list index tick)
  | [], _, _ => by simp [searchArrays, stepExceeded]
  | array :: rest, index, tick => by
    rw [searchArrays]
    split
    · simp [stepExceeded]
    · split
      · exact spares_ok
      · exact Spares.ite spares_ok searchArrays_spares

theorem rowAt_spares {spacing : ℕ} {next : NextTick} : Spares (rowAt arrays spacing next) := by
  unfold rowAt
  split
  · exact spares_corrupt
  · split
    · exact spares_corrupt
    · exact spares_ok

theorem tickAtOrBelow_spares {price : ℕ} : ∀ {guard : ℕ} {tick : ℤ}, Spares (tickAtOrBelow price guard tick)
  | 0, tick => by simp [tickAtOrBelow, stepExceeded]
  | guard + 1, tick => by
    rw [tickAtOrBelow]
    exact Spares.bind (sqrtPriceAtTick_spares tick) fun _ _ => Spares.ite spares_ok tickAtOrBelow_spares

theorem arrive_spares {s : SwapCore} {nextPrice target : ℕ} {tick : ℤ} (hrow : Spares row) :
    Spares (arrive s nextPrice target tick row) := by
  unfold arrive
  refine Spares.ite ?_ (Spares.ite ?_ spares_ok)
  · refine Spares.bind hrow fun found _ => ?_
    unfold crossTick
    exact Spares.ite (by simp [stepExceeded]) spares_ok
  · exact Spares.bind tickAtOrBelow_spares fun _ _ => spares_ok

theorem moveTo_spares {fee : ℕ} {s : SwapCore} {tick : ℤ} {sequenceEnd : Bool}
    (hfee : fee < feeRateDenominator) (habove : PriceAbove s) (hle : tick ≤ s.tick) (hrow : Spares row) :
    Spares (moveTo fee s tick sequenceEnd row) := by
  unfold moveTo
  refine Spares.bind (sqrtPriceAtTick_spares tick) fun target htarget => ?_
  refine Spares.bind (computeSwapStep_spares hfee (habove tick target hle htarget)) fun step _ => ?_
  refine Spares.ite (by simp [stepExceeded]) ?_
  refine Spares.bind (checkedU64_spares _) fun output _ => ?_
  refine Spares.bind (arrive_spares hrow) fun arrived _ => ?_
  exact Spares.ite (by simp [stepExceeded]) spares_ok

theorem swapLoop_spares (hspacing : 0 < pool.tickSpacing) (hfee : pool.feeRate < feeRateDenominator)
    (hchain : Consecutive pool.tickSpacing arrays) : ∀ {allowed : ℕ} {s : SwapState}, PriceAbove s.toSwapCore →
      Spares (swapLoop pool arrays allowed s)
  | 0, s, _ => by
    rw [swapLoop]
    exact Spares.ite spares_ok (by simp [stepExceeded])
  | allowed + 1, s, habove => by
    rw [swapLoop]
    refine Spares.ite spares_ok (Spares.bind ?_ fun next hnext => ?_)
    · unfold swapTurn
      refine Spares.bind searchArrays_spares fun next hnext => ?_
      have hle := (nextInitializedTick_bounds hspacing hchain hnext).1
      exact Spares.bind (moveTo_spares hfee habove hle rowAt_spares) fun _ _ => spares_ok
    · rcases swapTurn_ok hnext with ⟨found, _, _, hfound, -, hmoves⟩
      have hle := (nextInitializedTick_bounds hspacing hchain hfound).1
      exact swapLoop_spares hspacing hfee hchain (hmoves.priceAbove habove hle)

theorem priceAtTick_spares : Spares (priceAtTick pool) := by
  unfold priceAtTick
  refine Spares.ite (Spares.bind (sqrtPriceAtTick_spares _) fun _ _ => spares_ok) ?_
  refine Spares.bind (sqrtPriceAtTick_spares _) fun _ _ => Spares.ite spares_ok ?_
  exact Spares.bind (sqrtPriceAtTick_spares _) fun _ _ => spares_ok

theorem admitSwap_spares : Spares (admitSwap pool arrays amountIn) := by
  unfold admitSwap
  refine Spares.ite (by simp [stepExceeded]) (Spares.ite (by simp [stepExceeded]) ?_)
  refine Spares.ite (by simp [stepExceeded]) (Spares.ite (by simp [stepExceeded]) ?_)
  exact Spares.bind priceAtTick_spares fun _ _ => Spares.ite spares_ok (by simp [stepExceeded])

/-! ## The quote -/

/-- What a quote for `amountIn` says about the steps behind it. -/
structure Conserved (pool : WhirlpoolState) (arrays : List TickArrayState) (amountIn : ℕ) (steps : List SwapStep)
    (quote : WhirlpoolSwapQuote) : Prop where
  conserved : (steps.map (·.amountIn)).sum + quote.feeAtomic = amountIn
  falls : (pool.sqrtPrice :: steps.map (·.nextPrice)).Pairwise (· ≥ ·)
  last : quote.sqrtPriceAfter = (pool.sqrtPrice :: steps.map (·.nextPrice)).getLast (List.cons_ne_nil _ _)
  floor : ∀ third low, arrays[2]? = some third → sqrtPriceAtTick third.startTickIndex = .ok low →
    low ≤ quote.sqrtPriceAfter
  spot : quote.amountOutAtomic ≤ quote.spotOutputAfterFeeAtomic
  unclamped : shortfall quote.spotOutputAfterFeeAtomic quote.amountOutAtomic + quote.amountOutAtomic =
    quote.spotOutputAfterFeeAtomic
  impact : quote.priceImpactBps = impact quote.spotOutputAfterFeeAtomic quote.amountOutAtomic
  bounded : quote.priceImpactBps ≤ 10000

theorem impact_le {spot output : ℕ} (h : output ≤ spot) (hpos : 0 < output) : impact spot output ≤ 10000 := by
  have hspot : spot ≠ 0 := by omega
  have hshort : shortfall spot output ≤ spot := by
    unfold shortfall
    split <;> omega
  unfold impact
  rw [if_neg hspot]
  have hlt : shortfall spot output * 10000 + spot - 1 < (10000 + 1) * spot := by omega
  have hdiv := (Nat.div_lt_iff_lt_mul (Nat.pos_of_ne_zero hspot)).mpr hlt
  omega

-- Rounded down at last, the output is at most the spot output of the input after its fee.
theorem output_le_spot {amountIn output taken fee : ℕ} (hnet : taken * feeRateDenominator ≤ amountIn *
    (feeRateDenominator - fee)) (hworth : output * q128 ≤ taken * (pool.sqrtPrice * pool.sqrtPrice)) :
    output ≤ spotOutput (afterFee amountIn fee) pool.sqrtPrice := by
  have htaken : taken ≤ afterFee amountIn fee := (Nat.le_div_iff_mul_le (by decide)).mpr hnet
  unfold spotOutput
  rw [Nat.le_div_iff_mul_le (by decide), Nat.mul_assoc]
  exact hworth.trans (Nat.mul_le_mul_right _ htaken)

theorem third_lowest (hchain : Consecutive pool.tickSpacing arrays) (hsize : arrays.length = 3)
    {third : TickArrayState} (hthird : arrays[2]? = some third) :
    ∀ array ∈ arrays, third.startTickIndex ≤ array.startTickIndex := by
  match arrays, hsize with
  | [a, b, c], _ =>
    obtain rfl : c = third := Option.some.inj hthird
    have hspan : (0 : ℤ) ≤ tickArraySize * pool.tickSpacing := by positivity
    have hfirst := start_le hchain c (by simp)
    have hsecond := start_le hchain.tail c (by simp)
    intro array harray
    simp only [List.mem_cons, List.not_mem_nil, or_false] at harray
    rcases harray with rfl | rfl | rfl <;> omega

variable {quote : WhirlpoolSwapQuote}

theorem quote_ok (h : quoteWhirlpoolExactInAToB pool arrays amountIn = .ok quote) :
    Admitted pool arrays amountIn ∧ ∃ last, swapLoop pool arrays maxSteps ⟨startCore pool amountIn, 0⟩ = .ok last ∧
      finishQuote pool amountIn last.toSwapCore = .ok quote := by
  unfold quoteWhirlpoolExactInAToB at h
  simp only [bind_ok] at h
  rcases h with ⟨_, hadmit, last, hloop, hfinish⟩
  exact ⟨admitSwap_ok hadmit, last, hloop, hfinish⟩

theorem finishQuote_ok {s : SwapCore}
    (h : finishQuote pool amountIn s = .ok quote) : 0 < s.output ∧ quote.amountOutAtomic = s.output ∧
      quote.feeAtomic = s.feeTotal ∧ quote.sqrtPriceAfter = s.price ∧
      quote.spotOutputAfterFeeAtomic = spotOutput (afterFee amountIn pool.feeRate) pool.sqrtPrice ∧
      quote.priceImpactBps = min (impact quote.spotOutputAfterFeeAtomic quote.amountOutAtomic) 10000 := by
  unfold finishQuote at h
  rw [blocked_guard] at h
  rcases h with ⟨hpos, h⟩
  have h := Except.ok.inj h
  subst h
  exact ⟨Nat.pos_of_ne_zero hpos, rfl, rfl, rfl, rfl, rfl⟩

theorem quote_steps (h : quoteWhirlpoolExactInAToB pool arrays amountIn = .ok quote) :
    ∃ steps last, Runs.Run (SwapTurn pool arrays) ⟨startCore pool amountIn, 0⟩ steps last ∧ last.remaining = 0 ∧
      Conserved pool arrays amountIn steps quote := by
  rcases quote_ok h with ⟨hadmitted, last, hloop, hfinish⟩
  rcases swapLoop_run hloop with ⟨hend, steps, hrun⟩
  rcases finishQuote_ok hfinish with ⟨hpos, hout, hfee, hprice, hspot, himpact⟩
  have hbalanced := balanced_run hadmitted hrun
  have htaken := hbalanced.taken
  have hnet := hbalanced.net
  have hsum : (steps.map (·.amountIn)).sum + last.feeTotal = amountIn := by omega
  rw [hsum] at hnet
  have hle : quote.amountOutAtomic ≤ quote.spotOutputAfterFeeAtomic := by
    rw [hout, hspot]
    exact output_le_spot hnet hbalanced.worth
  have hbounded := impact_le hle (by omega)
  refine ⟨steps, last, hrun, hend, by rw [hfee]; exact hsum, hbalanced.falls, hprice.trans hbalanced.last, ?_, hle, ?_,
    by omega, by omega⟩
  · intro third low hthird hlow
    rw [hprice]
    exact hbalanced.floor _ _ (third_lowest hadmitted.chain hadmitted.size hthird) hlow
  · unfold shortfall
    split <;> omega

/-- **A quote conserves its input and never beats the spot price**; no step is refused for taking too much, and a
larger input is quoted at least as much. -/
theorem quote_conserves (pool : WhirlpoolState) (arrays : List TickArrayState) :
    (∀ amountIn quote, quoteWhirlpoolExactInAToB pool arrays amountIn = .ok quote →
      ∃ steps last, Runs.Run (SwapTurn pool arrays) ⟨startCore pool amountIn, 0⟩ steps last ∧ last.remaining = 0 ∧
        Conserved pool arrays amountIn steps quote) ∧
    (∀ amountIn, quoteWhirlpoolExactInAToB pool arrays amountIn ≠ .error stepExceeded) ∧
    ∀ a b quote quote', a ≤ b → quoteWhirlpoolExactInAToB pool arrays a = .ok quote →
      quoteWhirlpoolExactInAToB pool arrays b = .ok quote' → quote.amountOutAtomic ≤ quote'.amountOutAtomic := by
  refine ⟨fun _ _ => quote_steps, fun amountIn => ?_, fun a b quote quote' hab ha hb => ?_⟩
  · unfold quoteWhirlpoolExactInAToB
    refine Spares.bind admitSwap_spares fun _ hadmit => ?_
    have hadmitted := admitSwap_ok hadmit
    refine Spares.bind (swapLoop_spares hadmitted.spacing hadmitted.fee hadmitted.chain hadmitted.above) fun _ _ => ?_
    exact Spares.ite (by simp [stepExceeded]) spares_ok
  · rcases quote_ok ha with ⟨hadmitted, last, hloop, hfinish⟩
    rcases quote_ok hb with ⟨-, last', hloop', hfinish'⟩
    have hahead : Ahead ⟨startCore pool a, 0⟩ ⟨startCore pool b, 0⟩ := ⟨rfl, rfl, rfl, rfl, hab, le_refl _⟩
    rw [(finishQuote_ok hfinish).2.1, (finishQuote_ok hfinish').2.1]
    exact swapLoop_mono hadmitted.spacing hadmitted.chain hahead hadmitted.above hloop hloop'

end

namespace Crossing

/-- A pool at tick 5, with tick 3 initialized. -/
def pool : WhirlpoolState := ⟨"pool", 1, 3000, 10 ^ 12, 18451356105610194921, 5⟩

def arrays : List TickArrayState :=
  [⟨0, "pool", Boundary.ticks (· == 3)⟩, ⟨-88, "pool", Boundary.ticks fun _ => false⟩,
    ⟨-176, "pool", Boundary.ticks fun _ => false⟩]

end Crossing

open Crossing in
theorem crossing_quotes : ∃ (quote quote' : WhirlpoolSwapQuote) (steps : List SwapStep),
    quoteWhirlpoolExactInAToB pool arrays 1000 = .ok quote ∧
      quoteWhirlpoolExactInAToB pool arrays 200000000 = .ok quote' ∧ quote.amountOutAtomic ≤ quote'.amountOutAtomic ∧
        (steps.map (·.amountIn)).sum + quote'.feeAtomic = 200000000 := by
  have hok : ∀ amount ∈ [1000, 200000000], (quoteWhirlpoolExactInAToB pool arrays amount).isOk = true := by
    decide +kernel
  have hquoted : ∀ amount ∈ [1000, 200000000], ∃ quote, quoteWhirlpoolExactInAToB pool arrays amount = .ok quote := by
    intro amount hamount
    have hone := hok amount hamount
    cases hquote : quoteWhirlpoolExactInAToB pool arrays amount with
    | error e => rw [hquote] at hone; cases hone
    | ok quote => exact ⟨quote, rfl⟩
  rcases hquoted 1000 (by simp) with ⟨quote, hquote⟩
  rcases hquoted 200000000 (by simp) with ⟨quote', hquote'⟩
  rcases (quote_conserves pool arrays).1 200000000 quote' hquote' with ⟨steps, _, -, -, hconserved⟩
  exact ⟨quote, quote', steps, hquote, hquote',
    (quote_conserves pool arrays).2.2 1000 200000000 quote quote' (by decide) hquote hquote', hconserved.conserved⟩

end PaymentNode.Whirlpool
