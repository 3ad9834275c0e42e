import Mathlib.Algebra.Order.Floor.Div
import Mathlib.Tactic.Ring
import PaymentNode.Lib.Bits
import PaymentNode.Whirlpool.Math

/-!
# Whirlpool step — what one step of the swap takes, pays and leaves

The price of a tick never falls from one tick to the next.  A step towards a price at or below the current
one either reaches it, with an input the fee still fits beside, or uses up the input above it; its roundings
all go against the trader.
-/

namespace PaymentNode.Whirlpool

/-! ## The price of a tick is monotone -/

def factorOf (rows : List (ℕ × ℕ)) (bit : ℕ) : ℕ := (rows.getD bit (0, 0)).2

def scale (rows : List (ℕ × ℕ)) (shift bit ratio : ℕ) : ℕ := (ratio * factorOf rows bit) >>> shift

theorem scale_mono (rows : List (ℕ × ℕ)) (shift bit : ℕ) : Monotone (scale rows shift bit) := by
  intro a b hab
  unfold scale
  rw [Nat.shiftRight_eq_div_pow, Nat.shiftRight_eq_div_pow]
  exact Nat.div_le_div_right (Nat.mul_le_mul_right _ hab)

/-- The factor tables, with the factor of the lowest bit in front. -/
def positiveRows : List (ℕ × ℕ) := (1, 79232123823359799118286999567) :: positiveTickFactors

def negativeRows : List (ℕ × ℕ) := (1, 18445821805675392311) :: negativeTickFactors

theorem positiveRatio_eq (tick : ℕ) :
    positiveRatio tick = Bits.fold (scale positiveRows 96) 79228162514264337593543950336 tick 19 := by
  have hrows : ∀ k (h : k < positiveRows.length), positiveRows[k] = (2 ^ k, factorOf positiveRows k) := by decide
  exact Bits.foldl_eq_fold (fun factor ratio => (ratio * factor) >>> 96) tick positiveRows (factorOf positiveRows) hrows

theorem negativeRatio_eq (absolute : ℕ) :
    negativeRatio absolute = Bits.fold (scale negativeRows 64) q64 absolute 19 := by
  have hrows : ∀ k (h : k < negativeRows.length), negativeRows[k] = (2 ^ k, factorOf negativeRows k) := by decide
  exact Bits.foldl_eq_fold (fun factor ratio => (ratio * factor) >>> 64) absolute negativeRows (factorOf negativeRows) hrows

theorem positiveRatio_mono {m n : ℕ} (hle : m ≤ n) (hn : n < 2 ^ 19) : positiveRatio m ≤ positiveRatio n := by
  rw [positiveRatio_eq, positiveRatio_eq]
  exact Bits.fold_mono (fun k _ => scale_mono positiveRows 96 k) (by decide +kernel) hle hn

theorem negativeRatio_anti {m n : ℕ} (hle : m ≤ n) (hn : n < 2 ^ 19) : negativeRatio n ≤ negativeRatio m := by
  rw [negativeRatio_eq, negativeRatio_eq]
  have hbit : ∀ k < 19, scale negativeRows 64 k q64 ≤ Bits.fold (scale negativeRows 64) q64 (2 ^ k - 1) k := by
    decide +kernel
  exact Bits.fold_mono (α := ℕᵒᵈ) (fun k _ => (scale_mono negativeRows 64 k).dual) hbit hle hn

variable {tick : ℤ}

theorem sqrtPriceAtTick_ok {price : ℕ} (h : sqrtPriceAtTick tick = .ok price) :
    minTick ≤ tick ∧ tick ≤ maxTick ∧
      price = if 0 ≤ tick then positiveRatio tick.toNat >>> 32 else negativeRatio (-tick).toNat := by
  unfold sqrtPriceAtTick at h
  rw [blocked_guard] at h
  rcases h with ⟨hrange, h⟩
  refine ⟨by omega, by omega, ?_⟩
  by_cases hsign : 0 ≤ tick
  · rw [if_pos hsign] at h ⊢
    exact (Except.ok.inj h).symm
  · rw [if_neg hsign] at h ⊢
    exact (Except.ok.inj h).symm

theorem sqrtPriceAtTick_mono {a b : ℤ} {p q : ℕ} (hp : sqrtPriceAtTick a = .ok p) (hq : sqrtPriceAtTick b = .ok q)
    (hab : a ≤ b) : p ≤ q := by
  rcases sqrtPriceAtTick_ok hp with ⟨hamin, hamax, hp⟩
  rcases sqrtPriceAtTick_ok hq with ⟨hbmin, hbmax, hq⟩
  unfold minTick maxTick at *
  rw [hp, hq]
  have hup : ∀ {m n : ℕ}, m ≤ n → n < 2 ^ 19 → positiveRatio m >>> 32 ≤ positiveRatio n >>> 32 := by
    intro m n hle hn
    rw [Nat.shiftRight_eq_div_pow, Nat.shiftRight_eq_div_pow]
    exact Nat.div_le_div_right (positiveRatio_mono hle hn)
  by_cases ha : 0 ≤ a
  · rw [if_pos ha, if_pos (by omega)]
    exact hup (by omega) (by omega)
  · rw [if_neg ha]
    by_cases hb : 0 ≤ b
    · rw [if_pos hb]
      have hlow : negativeRatio (-a).toNat ≤ negativeRatio 0 := negativeRatio_anti (by omega) (by omega)
      have hhigh : positiveRatio 0 >>> 32 ≤ positiveRatio b.toNat >>> 32 := hup (by omega) (by omega)
      have hzero : negativeRatio 0 = positiveRatio 0 >>> 32 := by decide +kernel
      omega
    · rw [if_neg hb]
      exact negativeRatio_anti (by omega) (by omega)

/-! ## The arithmetic of one step -/

theorem divideUp_le_iff {n d k : ℕ} (hd : 0 < d) : divideUp n d ≤ k ↔ n ≤ d * k := by
  unfold divideUp
  rw [← Nat.ceilDiv_eq_add_pred_div]
  exact ceilDiv_le_iff_le_mul hd

theorem le_mul_divideUp (n : ℕ) {d : ℕ} (hd : 0 < d) : n ≤ d * divideUp n d := (divideUp_le_iff hd).mp (le_refl _)

theorem divideUp_zero (d : ℕ) : divideUp 0 d = 0 := by
  unfold divideUp
  rw [Nat.zero_add]
  rcases Nat.eq_zero_or_pos d with rfl | hd
  · rfl
  · exact Nat.div_eq_of_lt (by omega)

/-- Input a step of `liquidity` from `high` down to `low` takes, rounded up. -/
def inputBetween (liquidity high low : ℕ) : ℕ := divideUp (liquidity * (high - low) * q64) (high * low)

/-- Output the same step gives, rounded down. -/
def outputBetween (liquidity high low : ℕ) : ℕ := liquidity * (high - low) / q64

theorem deltaA_ok {high low liquidity amount : ℕ} (hle : low ≤ high)
    (h : deltaA high low liquidity true = .ok amount) :
    0 < high * low ∧ amount = inputBetween liquidity high low := by
  unfold deltaA at h
  simp only [min_eq_right hle, max_eq_left hle, if_pos, blocked_guard, Except.ok.injEq, not_or] at h
  rcases h with ⟨⟨-, hpos⟩, -, hamount⟩
  refine ⟨Nat.pos_of_ne_zero hpos, ?_⟩
  rw [← hamount, Nat.shiftLeft_eq]
  rfl

theorem deltaB_ok {high low liquidity amount : ℕ} (hle : low ≤ high) (h : deltaB high low liquidity = .ok amount) :
    amount = outputBetween liquidity high low := by
  unfold deltaB at h
  simp only [min_eq_right hle, max_eq_left hle, blocked_guard, Except.ok.injEq] at h
  rw [← h.2, Nat.shiftRight_eq_div_pow]
  rfl

theorem checkedU64_ok {value amount : ℕ} (h : checkedU64 value = .ok amount) : amount = value := by
  unfold checkedU64 at h
  rw [blocked_guard] at h
  exact (Except.ok.inj h.2).symm

theorem nextSqrtPrice_ok {price liquidity amount next : ℕ}
    (h : nextSqrtPriceFromAInput price liquidity amount = .ok next) :
    if amount = 0 then next = price
    else next = divideUp (liquidity * price * q64) (liquidity * q64 + price * amount) := by
  unfold nextSqrtPriceFromAInput at h
  split at h
  · case isTrue hzero =>
    rw [if_pos hzero]
    exact (Except.ok.inj h).symm
  · case isFalse hsome =>
    rw [if_neg hsome]
    simp only [blocked_guard, Except.ok.injEq] at h
    rw [← h.2.2, Nat.shiftLeft_eq, Nat.shiftLeft_eq]
    rfl

section Arithmetic

variable {liquidity price target next amount : ℕ}

-- An input reaches a price exactly where the price it would push to is at or below that one.
theorem inputBetween_le_iff (hle : target ≤ price) (hpos : 0 < price * target) :
    inputBetween liquidity price target ≤ amount ↔
      liquidity * price * q64 ≤ (liquidity * q64 + price * amount) * target := by
  unfold inputBetween
  rw [divideUp_le_iff hpos]
  obtain ⟨gap, rfl⟩ : ∃ gap, price = target + gap := ⟨price - target, by omega⟩
  rw [Nat.add_sub_cancel_left]
  have hleft : liquidity * (target + gap) * q64 = liquidity * gap * q64 + liquidity * q64 * target := by ring
  have hright : (liquidity * q64 + (target + gap) * amount) * target =
      (target + gap) * target * amount + liquidity * q64 * target := by ring
  rw [hleft, hright]
  omega

@[simp] theorem inputBetween_self : inputBetween liquidity price price = 0 := by
  unfold inputBetween
  rw [Nat.sub_self, Nat.mul_zero, Nat.zero_mul, divideUp_zero]

theorem pushed_le (hnext : nextSqrtPriceFromAInput price liquidity amount = .ok next) : next ≤ price := by
  have hok := nextSqrtPrice_ok hnext
  by_cases hzero : amount = 0
  · rw [if_pos hzero] at hok
    omega
  · rw [if_neg hzero] at hok
    rcases Nat.eq_zero_or_pos price with rfl | hprice
    · rw [hok, Nat.mul_zero, Nat.zero_mul, divideUp_zero]
    · have hden : 0 < liquidity * q64 + price * amount :=
        Nat.add_pos_right _ (Nat.mul_pos hprice (Nat.pos_of_ne_zero hzero))
      rw [hok, divideUp_le_iff hden, Nat.mul_right_comm, Nat.add_mul]
      exact Nat.le_add_right _ _

theorem lt_pushed (hle : target ≤ price) (hpos : 0 < price * target)
    (hshort : ¬ inputBetween liquidity price target ≤ amount)
    (hnext : nextSqrtPriceFromAInput price liquidity amount = .ok next) : target < next := by
  have hok := nextSqrtPrice_ok hnext
  by_cases hzero : amount = 0
  · rw [if_pos hzero] at hok
    have hne : target ≠ price := by
      rintro rfl
      rw [inputBetween_self] at hshort
      omega
    omega
  · rw [if_neg hzero] at hok
    have hprice : 0 < price := Nat.pos_of_mul_pos_right hpos
    have hden : 0 < liquidity * q64 + price * amount :=
      Nat.add_pos_right _ (Nat.mul_pos hprice (Nat.pos_of_ne_zero hzero))
    by_contra hbelow
    have hpushed : next ≤ target := by omega
    rw [hok, divideUp_le_iff hden] at hpushed
    exact hshort ((inputBetween_le_iff hle hpos).mpr hpushed)

theorem inputBetween_pushed_le (hpos : 0 < price * next)
    (hnext : nextSqrtPriceFromAInput price liquidity amount = .ok next) :
    inputBetween liquidity price next ≤ amount := by
  have hle : next ≤ price := pushed_le hnext
  have hok := nextSqrtPrice_ok hnext
  by_cases hzero : amount = 0
  · rw [if_pos hzero] at hok
    rw [hok, inputBetween_self]
    exact Nat.zero_le _
  · rw [if_neg hzero] at hok
    have hprice : 0 < price := Nat.pos_of_mul_pos_right hpos
    have hden : 0 < liquidity * q64 + price * amount :=
      Nat.add_pos_right _ (Nat.mul_pos hprice (Nat.pos_of_ne_zero hzero))
    rw [inputBetween_le_iff hle hpos]
    rw [hok]
    exact le_mul_divideUp _ hden

-- A larger input pushes the price at least as far down.
theorem pushed_anti {more next' : ℕ} (hmore : amount ≤ more)
    (hnext : nextSqrtPriceFromAInput price liquidity amount = .ok next)
    (hnext' : nextSqrtPriceFromAInput price liquidity more = .ok next') : next' ≤ next := by
  have hok := nextSqrtPrice_ok hnext
  have hok' := nextSqrtPrice_ok hnext'
  by_cases hzero : amount = 0
  · rw [if_pos hzero] at hok
    rw [hok]
    exact pushed_le hnext'
  · rw [if_neg hzero] at hok
    rw [if_neg (by omega)] at hok'
    rcases Nat.eq_zero_or_pos price with rfl | hprice
    · rw [hok', Nat.mul_zero, Nat.zero_mul, divideUp_zero]
      exact Nat.zero_le _
    · have hden : 0 < liquidity * q64 + price * amount :=
        Nat.add_pos_right _ (Nat.mul_pos hprice (Nat.pos_of_ne_zero hzero))
      have hden' : 0 < liquidity * q64 + price * more :=
        Nat.add_pos_right _ (Nat.mul_pos hprice (by omega))
      rw [hok', divideUp_le_iff hden', hok]
      calc liquidity * price * q64
          ≤ (liquidity * q64 + price * amount) * divideUp (liquidity * price * q64)
              (liquidity * q64 + price * amount) := le_mul_divideUp _ hden
        _ ≤ (liquidity * q64 + price * more) * divideUp (liquidity * price * q64)
              (liquidity * q64 + price * amount) := by gcongr

theorem outputBetween_mono {low low' : ℕ} (h : low' ≤ low) :
    outputBetween liquidity price low ≤ outputBetween liquidity price low' := by
  unfold outputBetween
  exact Nat.div_le_div_right (Nat.mul_le_mul_left _ (by omega))

end Arithmetic

/-! ## What a step does -/

/-- The step reaches its target. -/
structure Reaches (remaining fee liquidity current target : ℕ) (step : SwapStep) : Prop where
  nextPrice : step.nextPrice = target
  amountIn : step.amountIn = inputBetween liquidity current target
  amountOut : step.amountOut = outputBetween liquidity current target
  fits : step.amountIn ≤ afterFee remaining fee
  fee : step.fee = divideUp (step.amountIn * fee) (feeRateDenominator - fee)

/-- The input is used up above the target. -/
structure Lands (remaining fee liquidity current target : ℕ) (step : SwapStep) : Prop where
  above : target < step.nextPrice
  below : step.nextPrice ≤ current
  short : ¬ inputBetween liquidity current target ≤ afterFee remaining fee
  pushed : nextSqrtPriceFromAInput current liquidity (afterFee remaining fee) = .ok step.nextPrice
  amountIn : step.amountIn = inputBetween liquidity current step.nextPrice
  amountOut : step.amountOut = outputBetween liquidity current step.nextPrice
  fits : step.amountIn ≤ afterFee remaining fee
  fee : step.fee = remaining - step.amountIn

theorem afterFee_le (remaining fee : ℕ) : afterFee remaining fee ≤ remaining := by
  unfold afterFee
  have hfee : remaining * (feeRateDenominator - fee) ≤ remaining * feeRateDenominator :=
    Nat.mul_le_mul_left _ (Nat.sub_le _ _)
  exact Nat.div_le_of_le_mul (by rwa [Nat.mul_comm feeRateDenominator])

-- The fee on an input that fits leaves no more than was remaining.
theorem add_fee_le {remaining fee amount : ℕ} (hfee : fee < feeRateDenominator)
    (hfits : amount ≤ afterFee remaining fee) :
    amount + divideUp (amount * fee) (feeRateDenominator - fee) ≤ remaining := by
  have hpos : 0 < feeRateDenominator - fee := by omega
  have hremaining : amount ≤ remaining := hfits.trans (afterFee_le remaining fee)
  have hmul : amount * feeRateDenominator ≤ remaining * (feeRateDenominator - fee) :=
    (Nat.le_div_iff_mul_le (by decide)).mp hfits
  obtain ⟨net, hnet⟩ : ∃ net, feeRateDenominator = net + fee := ⟨feeRateDenominator - fee, by omega⟩
  obtain ⟨rest, rfl⟩ : ∃ rest, remaining = amount + rest := ⟨remaining - amount, by omega⟩
  rw [hnet, Nat.add_sub_cancel] at hmul hpos ⊢
  have hrest : amount * fee ≤ net * rest := by nlinarith
  have hup : divideUp (amount * fee) net ≤ rest := (divideUp_le_iff hpos).mpr hrest
  omega

variable {remaining fee liquidity current target : ℕ} {step : SwapStep}

theorem Reaches.taken_le (hfee : fee < feeRateDenominator) (h : Reaches remaining fee liquidity current target step) :
    step.amountIn + step.fee ≤ remaining := by
  rw [h.fee]
  exact add_fee_le hfee h.fits

theorem Lands.taken (h : Lands remaining fee liquidity current target step) :
    step.amountIn + step.fee = remaining := by
  have hle : step.amountIn ≤ remaining := h.fits.trans (afterFee_le remaining fee)
  rw [h.fee]
  omega

theorem step_parts {fixed next delta amountIn out amountOut charged : ℕ} (hle : target ≤ current)
    (hfixed : deltaA current target liquidity true = .ok fixed)
    (hnext : stepPrice fixed (afterFee remaining fee) liquidity current target = .ok next)
    (hdelta : stepInput fixed liquidity current next target = .ok delta) (hin : checkedU64 delta = .ok amountIn)
    (hout : deltaB current next liquidity = .ok out) (hpaid : checkedU64 out = .ok amountOut)
    (hcharged : stepFee remaining amountIn fee next target = .ok charged) :
    0 < current * target ∧ (Reaches remaining fee liquidity current target ⟨amountIn, amountOut, charged, next⟩ ∨
      Lands remaining fee liquidity current target ⟨amountIn, amountOut, charged, next⟩) := by
  rcases deltaA_ok hle hfixed with ⟨hpos, rfl⟩
  refine ⟨hpos, ?_⟩
  have hin := checkedU64_ok hin
  have hpaid := checkedU64_ok hpaid
  unfold stepPrice at hnext
  unfold stepInput at hdelta
  unfold stepFee at hcharged
  by_cases hfits : inputBetween liquidity current target ≤ afterFee remaining fee
  · left
    rw [if_pos hfits] at hnext
    have hnext : next = target := (Except.ok.inj hnext).symm
    subst hnext
    rw [if_pos rfl] at hdelta
    rw [if_neg (not_not.mpr rfl)] at hcharged
    have hdelta := Except.ok.inj hdelta
    exact ⟨rfl, by rw [hin, hdelta], by rw [hpaid, deltaB_ok hle hout], by rwa [hin, ← hdelta],
      checkedU64_ok hcharged⟩
  · right
    rw [if_neg hfits] at hnext
    have habove : target < next := lt_pushed hle hpos hfits hnext
    have hbelow : next ≤ current := pushed_le hnext
    rw [if_neg (by omega)] at hdelta
    rw [if_pos (by omega)] at hcharged
    rcases deltaA_ok hbelow hdelta with ⟨hpos', rfl⟩
    have hwithin : inputBetween liquidity current next ≤ afterFee remaining fee := inputBetween_pushed_le hpos' hnext
    exact ⟨habove, hbelow, hfits, hnext, hin, by rw [hpaid, deltaB_ok hbelow hout], by rwa [hin],
      (Except.ok.inj hcharged).symm⟩

theorem computeSwapStep_ok (hle : target ≤ current)
    (h : computeSwapStep remaining fee liquidity current target = .ok step) :
    0 < current * target ∧ (Reaches remaining fee liquidity current target step ∨
      Lands remaining fee liquidity current target step) := by
  unfold computeSwapStep at h
  simp only [bind_ok] at h
  rcases h with ⟨fixed, hfixed, next, hnext, delta, hdelta, amountIn, hin, out, hout, amountOut, hpaid, charged,
    hcharged, hlast⟩
  split at hlast
  · cases hlast
  · cases hlast
    exact step_parts hle hfixed hnext hdelta hin hout hpaid hcharged

/-! ## The refusal that is never reached -/

/-- The computation does not end with the refusal of a step that takes more than remains. -/
def Spares {α : Type} (x : Result α) : Prop := x ≠ .error stepExceeded

section Spares

variable {α β : Type} {x : Result α}

@[simp] theorem spares_ok {a : α} : Spares (.ok a : Result α) := by simp [Spares]

@[simp] theorem spares_blocked {message : String} :
    Spares (blocked message : Result α) ↔ message ≠ stepExceeded.message := by
  simp [Spares, blocked, stepExceeded]

@[simp] theorem spares_corrupt {message : String} : Spares (corrupt message : Result α) := by
  simp [Spares, corrupt, stepExceeded]

theorem Spares.bind {f : α → Result β} (hx : Spares x) (hf : ∀ a, x = .ok a → Spares (f a)) : Spares (x >>= f) := by
  cases x with
  | error e =>
    intro he
    exact hx (congrArg Except.error (Except.error.inj he))
  | ok a => exact hf a rfl

theorem Spares.ite {c : Prop} [Decidable c] {y : Result α} (hx : Spares x) (hy : Spares y) :
    Spares (if c then x else y) := by
  by_cases hc : c
  · rwa [if_pos hc]
  · rwa [if_neg hc]

end Spares

theorem checkedU64_spares (value : ℕ) : Spares (checkedU64 value) :=
  Spares.ite (by simp [stepExceeded]) spares_ok

theorem deltaA_spares (first second liquidity : ℕ) (roundUp : Bool) : Spares (deltaA first second liquidity roundUp) := by
  unfold deltaA
  exact Spares.ite (by simp [stepExceeded]) (Spares.ite (by simp [stepExceeded]) spares_ok)

theorem deltaB_spares (first second liquidity : ℕ) : Spares (deltaB first second liquidity) :=
  Spares.ite (by simp [stepExceeded]) spares_ok

theorem nextSqrtPrice_spares (price liquidity amount : ℕ) : Spares (nextSqrtPriceFromAInput price liquidity amount) :=
  Spares.ite spares_ok (Spares.ite (by simp [stepExceeded]) (Spares.ite (by simp [stepExceeded]) spares_ok))

theorem computeSwapStep_spares (hfee : fee < feeRateDenominator) (hle : target ≤ current) :
    Spares (computeSwapStep remaining fee liquidity current target) := by
  unfold computeSwapStep
  refine Spares.bind (deltaA_spares _ _ _ _) fun fixed hfixed => ?_
  refine Spares.bind (Spares.ite spares_ok (nextSqrtPrice_spares _ _ _)) fun next hnext => ?_
  refine Spares.bind (Spares.ite spares_ok (deltaA_spares _ _ _ _)) fun delta hdelta => ?_
  refine Spares.bind (checkedU64_spares _) fun amountIn hin => ?_
  refine Spares.bind (deltaB_spares _ _ _) fun out hout => ?_
  refine Spares.bind (checkedU64_spares _) fun amountOut hpaid => ?_
  refine Spares.bind (Spares.ite spares_ok (checkedU64_spares _)) fun charged hcharged => ?_
  have htaken : ¬ remaining < amountIn + charged := by
    rcases (step_parts hle hfixed hnext hdelta hin hout hpaid hcharged).2 with hreach | hland
    · have htaken : amountIn + charged ≤ remaining := hreach.taken_le hfee
      omega
    · have htaken : amountIn + charged = remaining := hland.taken
      omega
  rw [if_neg htaken]
  exact spares_ok

/-! ## One turn of the loop -/

/-- No tick at or below the current one has a price above the current price. -/
def PriceAbove (s : SwapCore) : Prop :=
  ∀ tick price, tick ≤ s.tick → sqrtPriceAtTick tick = .ok price → price ≤ s.price

/-- What a turn towards `tick` did. -/
structure Moves (fee : ℕ) (s : SwapCore) (tick : ℤ) (sequenceEnd : Bool) (row : Result TickState) (target : ℕ)
    (step : SwapStep) (t : SwapCore) : Prop where
  priced : sqrtPriceAtTick tick = .ok target
  stepped : computeSwapStep s.remaining fee s.liquidity s.price target = .ok step
  going : step.nextPrice = target → sequenceEnd = false
  output : t.output = s.output + step.amountOut
  remaining : t.remaining = s.remaining - (step.amountIn + step.fee)
  feeTotal : t.feeTotal = s.feeTotal + step.fee
  price : t.price = step.nextPrice
  arrives : ∃ arrived, arrive s step.nextPrice target tick row = .ok arrived ∧ t.tick = arrived.tick ∧
    t.liquidity = arrived.liquidity

variable {row : Result TickState} {s t : SwapCore}

theorem moveTo_ok {fee : ℕ} {sequenceEnd : Bool}
    (h : moveTo fee s tick sequenceEnd row = .ok t) : ∃ target step, Moves fee s tick sequenceEnd row target step t := by
  unfold moveTo at h
  simp only [bind_ok, blocked_guard] at h
  rcases h with ⟨target, htarget, step, hstep, hgoing, output, houtput, arrived, harrived, -, hlast⟩
  have hlast := Except.ok.inj hlast
  subst hlast
  refine ⟨target, step, htarget, hstep, ?_, checkedU64_ok houtput, rfl, rfl, rfl, arrived, harrived, rfl, rfl⟩
  intro hreached
  cases sequenceEnd with
  | false => rfl
  | true => exact absurd ⟨rfl, hreached⟩ hgoing

theorem crossTick_ok {row : TickState} (h : crossTick s tick row = .ok t) :
    t.tick = tick - 1 := by
  unfold crossTick at h
  rw [blocked_guard] at h
  rw [← Except.ok.inj h.2]

theorem tickAtOrBelow_ok {price : ℕ} : ∀ {guard : ℕ} {start tick : ℤ}, tickAtOrBelow price guard start = .ok tick →
    ∃ at', sqrtPriceAtTick tick = .ok at' ∧ at' ≤ price
  | 0, _, _, h => by cases h
  | guard + 1, start, tick, h => by
    rw [tickAtOrBelow, bind_ok] at h
    rcases h with ⟨at', hat, h⟩
    split at h
    · case isTrue hle =>
      rw [← Except.ok.inj h]
      exact ⟨at', hat, hle⟩
    · exact tickAtOrBelow_ok h

-- A turn crosses its tick, or it uses the input up above it.
theorem Moves.cases {fee : ℕ} {sequenceEnd : Bool} {target : ℕ}
    {step : SwapStep} (h : Moves fee s tick sequenceEnd row target step t) (habove : PriceAbove s)
    (hle : tick ≤ s.tick) :
    (Reaches s.remaining fee s.liquidity s.price target step ∧ t.tick = tick - 1 ∧ t.price = target) ∨
      (Lands s.remaining fee s.liquidity s.price target step ∧ t.remaining = 0) := by
  have htarget : target ≤ s.price := habove tick target hle h.priced
  rcases (computeSwapStep_ok htarget h.stepped).2 with hreach | hland
  · left
    refine ⟨hreach, ?_, by rw [h.price, hreach.nextPrice]⟩
    rcases h.arrives with ⟨arrived, harrived, htick, -⟩
    unfold arrive at harrived
    rw [if_pos hreach.nextPrice, bind_ok] at harrived
    rcases harrived with ⟨_, -, hcross⟩
    rw [htick, crossTick_ok hcross]
  · right
    refine ⟨hland, ?_⟩
    have htaken := hland.taken
    have hremaining := h.remaining
    omega

-- The price stays at or above the prices of the ticks at or below the current one.
theorem Moves.priceAbove {fee : ℕ} {sequenceEnd : Bool}
    {target : ℕ} {step : SwapStep} (h : Moves fee s tick sequenceEnd row target step t) (habove : PriceAbove s)
    (hle : tick ≤ s.tick) : PriceAbove t := by
  intro lower price hlower hprice
  rcases h.cases habove hle with ⟨-, htick, hreached⟩ | ⟨hland, -⟩
  · rw [hreached]
    exact sqrtPriceAtTick_mono hprice h.priced (by omega)
  · rcases h.arrives with ⟨arrived, harrived, htick, -⟩
    have hne : step.nextPrice ≠ target := by have habove := hland.above; omega
    unfold arrive at harrived
    rw [if_neg hne] at harrived
    rw [h.price]
    by_cases hmoved : step.nextPrice ≠ s.price
    · rw [if_pos hmoved, bind_ok] at harrived
      rcases harrived with ⟨found, hfound, harrived⟩
      rcases tickAtOrBelow_ok hfound with ⟨at', hat, hbelow⟩
      have hfoundTick : t.tick = found := by rw [htick, ← Except.ok.inj harrived]
      exact (sqrtPriceAtTick_mono hprice hat (by omega)).trans hbelow
    · rw [if_neg hmoved] at harrived
      rw [not_not.mp hmoved]
      exact habove lower price (by rw [htick, ← Except.ok.inj harrived] at hlower; exact hlower) hprice

end PaymentNode.Whirlpool
