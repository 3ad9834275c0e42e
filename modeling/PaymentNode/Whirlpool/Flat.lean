import Mathlib.Data.List.Chain
import PaymentNode.Whirlpool.Step

/-!
# Whirlpool flat loop — the swap over one list of ticks

The reference loop knows no arrays: its ticks are the slots of the passed arrays put one after another, from the
highest down.  It goes to the first initialized slot at or below the current tick, or to the lowest slot when
none is left.  The search array by array finds the same slot wherever it starts in the array of the current
tick, and only there.
-/

namespace PaymentNode.Whirlpool

abbrev Slot := ℤ × TickState

/-- The slots of an array from `offset` down. -/
def TickArrayState.slotsFrom (array : TickArrayState) (spacing : ℕ) : (offset : ℕ) → offset < tickArraySize → List Slot
  | 0, h => [(array.startTickIndex, array.ticks.get ⟨0, h⟩)]
  | offset + 1, h => (array.startTickIndex + (offset + 1 : ℕ) * spacing, array.ticks.get ⟨offset + 1, h⟩) ::
      array.slotsFrom spacing offset (Nat.lt_of_succ_lt h)

theorem lastOffset_lt : 87 < tickArraySize := by decide

def flatSlots (spacing : ℕ) (arrays : List TickArrayState) : List Slot :=
  arrays.flatMap fun array => array.slotsFrom spacing 87 lastOffset_lt

/-- An initialized slot at or below `tick`. -/
def Slot.below (tick : ℤ) (slot : Slot) : Bool := decide (slot.1 ≤ tick) && slot.2.initialized

/-- The next slot of the flat loop, and whether it is the end of the passed ticks. -/
def flatNext (slots : List Slot) (tick : ℤ) : Option (Slot × Bool) :=
  match slots.find? (Slot.below tick) with
  | some slot => some (slot, false)
  | none => slots.getLast?.map fun slot => (slot, true)

def flatTurn (pool : WhirlpoolState) (slots : List Slot) (s : SwapCore) : Result SwapCore :=
  match flatNext slots s.tick with
  | none => blocked "Whirlpool search left the passed tick arrays."
  | some (slot, sequenceEnd) => moveTo pool.feeRate s slot.1 sequenceEnd (.ok slot.2)

def flatLoop (pool : WhirlpoolState) (slots : List Slot) : ℕ → SwapCore → Result SwapCore
  | allowed, s =>
    if s.remaining = 0 then .ok s
    else match allowed with
      | 0 => blocked "Whirlpool swap crosses too many ticks for this bounded quote."
      | allowed + 1 => do
        let next ← flatTurn pool slots s
        flatLoop pool slots allowed next

/-- The ticks the flat loop crosses with input left over. -/
def flatCrossings (pool : WhirlpoolState) (slots : List Slot) : ℕ → SwapCore → List ℤ
  | 0, _ => []
  | allowed + 1, s =>
    if s.remaining = 0 then []
    else match flatTurn pool slots s with
      | .error _ => []
      | .ok next => if next.remaining = 0 then [] else (next.tick + 1) :: flatCrossings pool slots allowed next

/-- The reference: the same checks and the same quote over the flat loop. -/
def flatQuote (pool : WhirlpoolState) (arrays : List TickArrayState) (amountIn : ℕ) : Result WhirlpoolSwapQuote := do
  admitSwap pool arrays amountIn
  let last ← flatLoop pool (flatSlots pool.tickSpacing arrays) maxSteps (startCore pool amountIn)
  finishQuote pool amountIn last

/-! ## The slots of one array -/

section Slots

variable {array : TickArrayState} {spacing : ℕ} {tick : ℤ}

theorem mem_slotsFrom : ∀ {offset : ℕ} {h : offset < tickArraySize} {slot : Slot},
    slot ∈ array.slotsFrom spacing offset h → ∃ k, k ≤ offset ∧ slot.1 = array.startTickIndex + k * spacing
  | 0, h, slot, hslot => by
    rw [TickArrayState.slotsFrom, List.mem_singleton] at hslot
    exact ⟨0, le_refl _, by rw [hslot]; simp⟩
  | offset + 1, h, slot, hslot => by
    rw [TickArrayState.slotsFrom, List.mem_cons] at hslot
    rcases hslot with rfl | hslot
    · exact ⟨offset + 1, le_refl _, rfl⟩
    · rcases mem_slotsFrom hslot with ⟨k, hk, htick⟩
      exact ⟨k, by omega, htick⟩

theorem getLast_slotsFrom : ∀ {offset : ℕ} {h : offset < tickArraySize},
    (array.slotsFrom spacing offset h).getLast? =
      some (array.startTickIndex, array.ticks.get ⟨0, Nat.lt_of_le_of_lt (Nat.zero_le _) h⟩)
  | 0, h => rfl
  | offset + 1, h => by
    rw [TickArrayState.slotsFrom, List.getLast?_cons, getLast_slotsFrom]
    rfl

-- Slots above the tick are passed over.
theorem find_slotsFrom_above {k : ℕ} (hk : k < tickArraySize) (habove : tick < array.startTickIndex + (k + 1 : ℕ) * spacing) :
    ∀ {offset : ℕ} {h : offset < tickArraySize}, k ≤ offset →
      (array.slotsFrom spacing offset h).find? (Slot.below tick) =
        (array.slotsFrom spacing k hk).find? (Slot.below tick)
  | 0, h, hle => by
    obtain rfl : k = 0 := by omega
    rfl
  | offset + 1, h, hle => by
    by_cases hlast : k = offset + 1
    · subst hlast
      rfl
    · have hfar : ((k + 1 : ℕ) : ℤ) * spacing ≤ ((offset + 1 : ℕ) : ℤ) * spacing :=
        mul_le_mul_of_nonneg_right (by omega) (Int.natCast_nonneg _)
      have hnot : Slot.below tick (array.startTickIndex + (offset + 1 : ℕ) * spacing,
          array.ticks.get ⟨offset + 1, h⟩) = false := by
        unfold Slot.below
        rw [decide_eq_false (by dsimp only; omega), Bool.false_and]
      rw [TickArrayState.slotsFrom, List.find?_cons, hnot]
      exact find_slotsFrom_above hk habove (by omega)

-- At or below the tick, the first initialized slot is the one the search of the array finds.
theorem find_slotsFrom_below : ∀ {offset : ℕ} {h : offset < tickArraySize},
    array.startTickIndex + offset * spacing ≤ tick →
      match array.initializedFrom offset h with
      | some k => ∃ hk : k < tickArraySize, k ≤ offset ∧ (array.slotsFrom spacing offset h).find? (Slot.below tick) =
          some (array.startTickIndex + k * spacing, array.ticks.get ⟨k, hk⟩)
      | none => (array.slotsFrom spacing offset h).find? (Slot.below tick) = none
  | 0, h, hle => by
    have hle : array.startTickIndex ≤ tick := by simpa using hle
    rw [TickArrayState.initializedFrom, TickArrayState.slotsFrom, List.find?_singleton]
    unfold Slot.below
    rw [decide_eq_true hle, Bool.true_and]
    by_cases hset : (array.ticks.get ⟨0, h⟩).initialized
    · rw [if_pos hset, if_pos hset]
      exact ⟨h, le_refl _, by simp⟩
    · rw [if_neg hset, if_neg hset]
  | offset + 1, h, hle => by
    have hstep : (0 : ℤ) ≤ spacing := Int.natCast_nonneg _
    have hbelow : array.startTickIndex + offset * spacing ≤ tick := by
      push_cast at hle
      nlinarith
    have ih := find_slotsFrom_below (h := Nat.lt_of_succ_lt h) hbelow
    rw [TickArrayState.initializedFrom, TickArrayState.slotsFrom, List.find?_cons]
    have hself : Slot.below tick (array.startTickIndex + (offset + 1 : ℕ) * spacing,
        array.ticks.get ⟨offset + 1, h⟩) = (array.ticks.get ⟨offset + 1, h⟩).initialized := by
      unfold Slot.below
      rw [decide_eq_true hle, Bool.true_and]
    rw [hself]
    by_cases hset : (array.ticks.get ⟨offset + 1, h⟩).initialized
    · rw [if_pos hset, hset]
      exact ⟨h, le_refl _, rfl⟩
    · rw [if_neg hset, Bool.eq_false_iff.mpr hset]
      cases hfound : array.initializedFrom offset (Nat.lt_of_succ_lt h) with
      | none =>
        rw [hfound] at ih
        exact ih
      | some k =>
        rw [hfound] at ih
        rcases ih with ⟨hk, hle, hfind⟩
        exact ⟨hk, by omega, hfind⟩

end Slots

/-! ## The search from array to array -/

/-- Each array begins where the one before it ends. -/
def Consecutive (spacing : ℕ) (arrays : List TickArrayState) : Prop :=
  List.IsChain (fun upper lower : TickArrayState => lower.startTickIndex + tickArraySize * spacing = upper.startTickIndex) arrays

/-- The array holds the tick. -/
def TickArrayState.Covers (array : TickArrayState) (spacing : ℕ) (tick : ℤ) : Prop :=
  array.startTickIndex ≤ tick ∧ tick < array.startTickIndex + tickArraySize * spacing

variable {spacing : ℕ}

theorem slots_below_start {array : TickArrayState} (hspacing : 0 < spacing) :
    ∀ {rest : List TickArrayState}, Consecutive spacing (array :: rest) →
      ∀ slot ∈ flatSlots spacing rest, slot.1 ≤ array.startTickIndex - 1
  | [], _, slot, hslot => by simp [flatSlots] at hslot
  | next :: rest, hchain, slot, hslot => by
    rcases List.isChain_cons_cons.mp hchain with ⟨hstart, hrest⟩
    rw [flatSlots, List.flatMap_cons, List.mem_append] at hslot
    rcases hslot with hslot | hslot
    · rcases mem_slotsFrom hslot with ⟨k, hk, htick⟩
      have hreach : (k : ℤ) * spacing + spacing ≤ tickArraySize * spacing := by
        have hsize : (k : ℤ) + 1 ≤ tickArraySize := by unfold tickArraySize; omega
        nlinarith
      omega
    · have hlower : slot.1 ≤ next.startTickIndex - 1 := slots_below_start hspacing hrest slot hslot
      have hspan : (0 : ℤ) ≤ tickArraySize * spacing := by positivity
      omega

/-- What the flat loop takes at a tick, and where the array search finds it. -/
structure FoundAt (arrays : List TickArrayState) (spacing : ℕ) (at' : ℤ) (first : ℕ) (next : NextTick)
    (array : TickArrayState) (offset : Fin tickArraySize) : Prop where
  flat : flatNext (flatSlots spacing arrays) at' = some ((next.tick, array.ticks.get offset), next.sequenceEnd)
  place : ∃ k, next.arrayIndex = first + k ∧ arrays[k]? = some array
  tick : next.tick = array.startTickIndex + (offset : ℕ) * spacing
  le : next.tick ≤ at'

theorem flatNext_append {above rest : List Slot} {tick start : ℤ} (hnone : above.find? (Slot.below tick) = none)
    (hrest : rest ≠ []) (hbelow : ∀ slot ∈ rest, slot.1 ≤ start) (hstart : start ≤ tick) :
    flatNext (above ++ rest) tick = flatNext rest start := by
  have hsame : rest.find? (Slot.below tick) = rest.find? (Slot.below start) := by
    apply List.find?_congr
    intro slot hslot
    have hle : slot.1 ≤ start := hbelow slot hslot
    unfold Slot.below
    rw [decide_eq_true hle, decide_eq_true (hle.trans hstart)]
  unfold flatNext
  rw [List.find?_append, hnone, Option.none_or, hsame, List.getLast?_append_of_ne_nil _ hrest]

theorem flatSlots_ne_nil {array : TickArrayState} {rest : List TickArrayState} :
    flatSlots spacing (array :: rest) ≠ [] := by
  rw [flatSlots, List.flatMap_cons, TickArrayState.slotsFrom]
  simp

theorem offset_of_covers {array : TickArrayState} {tick : ℤ} (hspacing : 0 < spacing) (h : array.Covers spacing tick) :
    array.startTickIndex + (((tick - array.startTickIndex) / spacing).toNat : ℕ) * spacing ≤ tick ∧
      tick < array.startTickIndex + (((tick - array.startTickIndex) / spacing).toNat + 1 : ℕ) * spacing := by
  have hpos : (0 : ℤ) < spacing := by omega
  have hquotient : 0 ≤ (tick - array.startTickIndex) / spacing := Int.ediv_nonneg (by have h := h.1; omega) (by omega)
  have hlow : (tick - array.startTickIndex) / spacing * spacing ≤ tick - array.startTickIndex :=
    Int.ediv_mul_le _ (by omega)
  have hhigh : tick - array.startTickIndex < ((tick - array.startTickIndex) / spacing + 1) * spacing :=
    Int.lt_ediv_add_one_mul_self _ hpos
  push_cast
  rw [Int.toNat_of_nonneg hquotient]
  constructor <;> omega

-- From the array that holds the tick on, the arrays are searched as the flat loop searches all their slots.
theorem searchArrays_found (hspacing : 0 < spacing) : ∀ {arrays : List TickArrayState} {head : TickArrayState}
    (first : ℕ) {tick : ℤ}, arrays.head? = some head → Consecutive spacing arrays → head.Covers spacing tick →
      ∃ next array offset, searchArrays spacing arrays first tick = .ok next ∧
        FoundAt arrays spacing tick first next array offset
  | [], _, _, _, hhead, _, _ => by cases hhead
  | array :: rest, head, first, tick, hhead, hchain, hcovers => by
    obtain rfl : array = head := Option.some.inj hhead
    have hrange : ¬ (tick < array.startTickIndex ∨ array.startTickIndex + tickArraySize * spacing ≤ tick) := by
      have h := hcovers.1
      have h' := hcovers.2
      omega
    rcases offset_of_covers hspacing hcovers with ⟨hlow, hhigh⟩
    have hoffset := offset_lt hrange
    have habove : (array.slotsFrom spacing 87 lastOffset_lt).find? (Slot.below tick) = _ :=
      find_slotsFrom_above hoffset hhigh (by unfold tickArraySize at hoffset; omega)
    have hfind := find_slotsFrom_below (h := hoffset) hlow
    rw [searchArrays, dif_neg hrange]
    cases hfound : array.initializedFrom ((tick - array.startTickIndex) / spacing).toNat hoffset with
    | some offset =>
      rw [hfound] at hfind
      rcases hfind with ⟨hk, hle, hfind⟩
      refine ⟨_, array, ⟨offset, hk⟩, rfl, ?_, ⟨0, rfl, rfl⟩, rfl, ?_⟩
      · unfold flatNext flatSlots
        rw [List.flatMap_cons, List.find?_append, habove, hfind]
        rfl
      · have hmul : ((offset : ℕ) : ℤ) * spacing ≤
            (((tick - array.startTickIndex) / spacing).toNat : ℕ) * spacing :=
          mul_le_mul_of_nonneg_right (by omega) (Int.natCast_nonneg _)
        dsimp only
        omega
    | none =>
      rw [hfound] at hfind
      rw [← habove] at hfind
      cases rest with
      | nil =>
        refine ⟨_, array, ⟨0, by decide⟩, rfl, ?_, ⟨0, rfl, rfl⟩, by simp, hcovers.1⟩
        unfold flatNext flatSlots
        rw [List.flatMap_cons, List.flatMap_nil, List.append_nil, hfind, getLast_slotsFrom]
        rfl
      | cons below rest =>
        rcases List.isChain_cons_cons.mp hchain with ⟨hstart, hrest⟩
        have hnext : below.Covers spacing (array.startTickIndex - 1) := by
          have hspan : (0 : ℤ) < tickArraySize * spacing := by
            have hpos : (0 : ℤ) < spacing := by omega
            exact mul_pos (by decide) hpos
          constructor <;> omega
        rcases searchArrays_found hspacing (first + 1) rfl hrest hnext with
          ⟨next, found, offset, hsearch, hfoundAt⟩
        have hcovered := hcovers.1
        refine ⟨next, found, offset, hsearch, ?_, ?_, hfoundAt.tick, by have h := hfoundAt.le; omega⟩
        · rw [← hfoundAt.flat]
          unfold flatSlots
          rw [List.flatMap_cons]
          exact flatNext_append hfind flatSlots_ne_nil (slots_below_start hspacing hchain) (by omega)
        · rcases hfoundAt.place with ⟨k, hindex, hplace⟩
          exact ⟨k + 1, by omega, hplace⟩

-- A later array ends at or below the start of an earlier one.
theorem start_le {array : TickArrayState} : ∀ {rest : List TickArrayState}, Consecutive spacing (array :: rest) →
    ∀ lower ∈ rest, lower.startTickIndex + tickArraySize * spacing ≤ array.startTickIndex
  | [], _, lower, hlower => by cases hlower
  | next :: rest, hchain, lower, hlower => by
    rcases List.isChain_cons_cons.mp hchain with ⟨hstart, hrest⟩
    rcases List.mem_cons.mp hlower with rfl | hlower
    · exact hstart.le
    · have hbelow : lower.startTickIndex + tickArraySize * spacing ≤ next.startTickIndex :=
        start_le hrest lower hlower
      have hspan : (0 : ℤ) ≤ tickArraySize * spacing := by positivity
      omega

-- The arrays above the one that holds the tick have nothing for the flat loop.
theorem flatNext_drop {tick : ℤ} : ∀ {arrays : List TickArrayState} {index : ℕ} {array : TickArrayState},
    Consecutive spacing arrays → arrays[index]? = some array → tick < array.startTickIndex + tickArraySize * spacing →
      flatNext (flatSlots spacing arrays) tick = flatNext (flatSlots spacing (arrays.drop index)) tick
  | [], _, _, _, harray, _ => by simp at harray
  | _ :: _, 0, _, _, _, _ => rfl
  | head :: rest, index + 1, array, hchain, harray, htick => by
    have harray : rest[index]? = some array := by simpa using harray
    have hmem : array ∈ rest := List.mem_of_getElem? harray
    have hstart := start_le hchain array hmem
    have hnone : (head.slotsFrom spacing 87 lastOffset_lt).find? (Slot.below tick) = none := by
      rw [List.find?_eq_none]
      intro slot hslot
      rcases mem_slotsFrom hslot with ⟨k, -, hat⟩
      have hspan : (0 : ℤ) ≤ (k : ℤ) * spacing := by positivity
      unfold Slot.below
      rw [decide_eq_false (by omega), Bool.false_and]
      exact Bool.false_ne_true
    have hrest : Consecutive spacing rest := List.IsChain.tail hchain
    rw [List.drop_succ_cons, ← flatNext_drop hrest harray htick]
    unfold flatNext
    conv_lhs => rw [flatSlots, List.flatMap_cons]
    rw [List.find?_append, hnone, Option.none_or, List.getLast?_append_of_ne_nil]
    · rfl
    · cases rest with
      | nil => cases hmem
      | cons next rest => exact flatSlots_ne_nil

/-- The search starts in the array of the current tick. -/
def Placed (arrays : List TickArrayState) (spacing : ℕ) (s : SwapState) : Prop :=
  ∃ array, arrays[s.arrayIndex]? = some array ∧ array.Covers spacing s.tick

theorem nextInitializedTick_found {arrays : List TickArrayState} {tick : ℤ} {start : ℕ} {array : TickArrayState}
    (hspacing : 0 < spacing) (hchain : Consecutive spacing arrays) (harray : arrays[start]? = some array)
    (hcovers : array.Covers spacing tick) :
    ∃ next found offset, nextInitializedTick arrays tick spacing start = .ok next ∧
      FoundAt arrays spacing tick 0 next found offset := by
  have hhead : (arrays.drop start).head? = some array := by rw [List.head?_drop, harray]
  have hdrop : Consecutive spacing (arrays.drop start) := List.IsChain.drop hchain start
  rcases searchArrays_found hspacing start hhead hdrop hcovers with
    ⟨next, found, offset, hsearch, hfound⟩
  rcases hfound.place with ⟨k, hindex, hplace⟩
  refine ⟨next, found, offset, hsearch, ?_, ⟨next.arrayIndex, by omega, ?_⟩, hfound.tick, hfound.le⟩
  · rw [flatNext_drop hchain harray hcovers.2]
    exact hfound.flat
  · rw [hindex, ← hplace, List.getElem?_drop]

theorem rowAt_found {arrays : List TickArrayState} {tick : ℤ} {next : NextTick} {found : TickArrayState}
    {offset : Fin tickArraySize} (hspacing : 0 < spacing) (h : FoundAt arrays spacing tick 0 next found offset) :
    rowAt arrays spacing next = .ok (found.ticks.get offset) := by
  rcases h.place with ⟨k, hindex, hplace⟩
  have hpos : (spacing : ℤ) ≠ 0 := by omega
  have hoffset : ((next.tick - found.startTickIndex) / spacing).toNat = offset := by
    rw [h.tick, add_sub_cancel_left, Int.mul_ediv_cancel _ hpos, Int.toNat_natCast]
  unfold rowAt
  rw [hindex, Nat.zero_add, hplace]
  dsimp only
  rw [hoffset, Vector.getElem?_eq_getElem offset.isLt]
  rfl

/-! ## What the checks on the arguments say -/

structure Admitted (pool : WhirlpoolState) (arrays : List TickArrayState) (amountIn : ℕ) : Prop where
  amount : 0 < amountIn
  size : arrays.length = 3
  spacing : 0 < pool.tickSpacing
  fee : pool.feeRate < feeRateDenominator
  chain : Consecutive pool.tickSpacing arrays
  covers : ∃ array, arrays[0]? = some array ∧ array.Covers pool.tickSpacing pool.tickCurrentIndex
  above : PriceAbove (startCore pool amountIn)

theorem priceAtTick_ok {pool : WhirlpoolState} (h : priceAtTick pool = .ok true) :
    ∃ low, sqrtPriceAtTick pool.tickCurrentIndex = .ok low ∧ low ≤ pool.sqrtPrice := by
  unfold priceAtTick at h
  by_cases htop : pool.tickCurrentIndex = maxTick
  · rw [if_pos htop, bind_ok] at h
    rcases h with ⟨top, hprice, h⟩
    have hsame : pool.sqrtPrice = top := of_decide_eq_true (Except.ok.inj h)
    exact ⟨top, by rwa [htop], hsame.ge⟩
  · rw [if_neg htop, bind_ok] at h
    rcases h with ⟨low, hprice, h⟩
    by_cases hlow : pool.sqrtPrice < low
    · rw [if_pos hlow] at h
      cases h
    · exact ⟨low, hprice, not_lt.mp hlow⟩

theorem admitSwap_ok {pool : WhirlpoolState} {arrays : List TickArrayState} {amountIn : ℕ}
    (h : admitSwap pool arrays amountIn = .ok ()) : Admitted pool arrays amountIn := by
  unfold admitSwap at h
  simp only [blocked_guard, bind_ok, not_or, not_lt, not_le, not_not] at h
  rcases h with ⟨⟨hamount, -⟩, hsize, ⟨hspacing, hfee, -, -⟩, hdown, consistent, hprice, hlast⟩
  have hconsistent : consistent = true := by
    cases consistent with
    | false => cases hlast
    | true => rfl
  subst hconsistent
  have hpositive : 0 < pool.tickSpacing := Nat.pos_of_ne_zero hspacing
  obtain ⟨first, second, third, rfl⟩ := List.length_eq_three.mp hsize
  have hfirst := (hdown (first, 0) (by simp)).1
  have hsecond := (hdown (second, 1) (by simp)).1
  have hthird := (hdown (third, 2) (by simp)).1
  push_cast at hfirst hsecond hthird
  refine ⟨Nat.pos_of_ne_zero hamount, rfl, hpositive, hfee, ?_, ⟨first, rfl, ?_⟩, ?_⟩
  · unfold Consecutive
    rw [List.isChain_cons_cons, List.isChain_cons_cons]
    exact ⟨by omega, by omega, List.isChain_singleton _⟩
  · have hspan : (0 : ℤ) < tickArraySize * pool.tickSpacing := by
      have hpos : (0 : ℤ) < pool.tickSpacing := by omega
      exact mul_pos (by decide) hpos
    have hlow := Int.ediv_mul_le pool.tickCurrentIndex (ne_of_gt hspan)
    have hhigh := Int.lt_ediv_add_one_mul_self pool.tickCurrentIndex hspan
    rw [add_mul, one_mul] at hhigh
    unfold tickArrayStart at hfirst
    constructor <;> omega
  · rcases priceAtTick_ok hprice with ⟨low, hlow, hle⟩
    intro tick price htick hat
    exact (sqrtPriceAtTick_mono hat hlow htick).trans hle

/-! ## One turn in step -/

section Turn

variable {pool : WhirlpoolState} {arrays : List TickArrayState} {s : SwapState}

/-- The input is left over right below the start of an array, at the price of that start. -/
def AtStart (arrays : List TickArrayState) (index : ℕ) (t : SwapCore) : Prop :=
  ∃ array, arrays[index]? = some array ∧ t.tick + 1 = array.startTickIndex ∧
    sqrtPriceAtTick (t.tick + 1) = .ok t.price

-- From the array of the current tick both loops take the same turn; with input left the search is again in the
-- array of the new tick, unless that turn crossed the start of its array.
theorem turns_agree (hspacing : 0 < pool.tickSpacing) (hchain : Consecutive pool.tickSpacing arrays)
    (hplaced : Placed arrays pool.tickSpacing s) (habove : PriceAbove s.toSwapCore) :
    ∃ index, (swapTurn pool arrays s =
        (flatTurn pool (flatSlots pool.tickSpacing arrays) s.toSwapCore).map fun t => ⟨t, index⟩) ∧
      ∀ t, flatTurn pool (flatSlots pool.tickSpacing arrays) s.toSwapCore = .ok t → PriceAbove t ∧
        (t.remaining = 0 ∨ (∃ array, arrays[index]? = some array ∧ array.startTickIndex < t.tick + 1 ∧
          t.tick + 1 < array.startTickIndex + tickArraySize * pool.tickSpacing) ∨ AtStart arrays index t) := by
  rcases hplaced with ⟨array, harray, hcovers⟩
  rcases nextInitializedTick_found hspacing hchain harray hcovers with ⟨next, found, offset, hnext, hfound⟩
  have hflat : flatTurn pool (flatSlots pool.tickSpacing arrays) s.toSwapCore =
      moveTo pool.feeRate s.toSwapCore next.tick next.sequenceEnd (.ok (found.ticks.get offset)) := by
    unfold flatTurn
    rw [hfound.flat]
  refine ⟨next.arrayIndex, ?_, ?_⟩
  · unfold swapTurn
    rw [hnext, hflat, ← rowAt_found hspacing hfound]
    dsimp only [Bind.bind, Except.bind]
    cases moveTo pool.feeRate s.toSwapCore next.tick next.sequenceEnd (rowAt arrays pool.tickSpacing next) <;> rfl
  · intro t ht
    rw [hflat] at ht
    rcases moveTo_ok ht with ⟨target, step, hmoves⟩
    refine ⟨hmoves.priceAbove habove hfound.le, ?_⟩
    rcases hmoves.cases habove hfound.le with ⟨-, htick, hprice⟩ | ⟨-, hdone⟩
    · right
      rcases hfound.place with ⟨k, hindex, hplace⟩
      have hthere : arrays[next.arrayIndex]? = some found := by rw [hindex, Nat.zero_add, hplace]
      have htick : t.tick + 1 = next.tick := by omega
      by_cases hstart : (offset : ℕ) = 0
      · right
        have hat := hfound.tick
        rw [hstart, Nat.cast_zero, zero_mul, add_zero] at hat
        exact ⟨found, hthere, by omega, by rw [htick, hprice]; exact hmoves.priced⟩
      · left
        have hat := hfound.tick
        have hpos : (0 : ℤ) < pool.tickSpacing := by omega
        have hoffset : (0 : ℤ) < (offset : ℕ) := by omega
        have hsize : ((offset : ℕ) : ℤ) < tickArraySize := by exact_mod_cast offset.isLt
        have hlow : (0 : ℤ) < (offset : ℕ) * pool.tickSpacing := mul_pos hoffset hpos
        have hhigh : ((offset : ℕ) : ℤ) * pool.tickSpacing < tickArraySize * pool.tickSpacing :=
          mul_lt_mul_of_pos_right hsize hpos
        exact ⟨found, hthere, by omega, by omega⟩
    · exact Or.inl hdone

-- Right below the start of an array the search, still in that array, refuses.
theorem swapTurn_atStart (h : AtStart arrays s.arrayIndex s.toSwapCore) :
    (swapTurn pool arrays s).toOption = none := by
  rcases h with ⟨array, harray, hstart, -⟩
  have hdrop : arrays.drop s.arrayIndex = array :: arrays.drop (s.arrayIndex + 1) := by
    rcases List.getElem?_eq_some_iff.mp harray with ⟨hindex, hget⟩
    rw [List.drop_eq_getElem_cons hindex, hget]
  unfold swapTurn nextInitializedTick
  rw [hdrop, searchArrays, dif_pos (by omega)]
  rfl

-- Below the last array nothing is left, and the flat loop refuses as well.
theorem flatTurn_below {array : TickArrayState} {t : SwapCore}
    (habove : ∀ slot ∈ flatSlots pool.tickSpacing arrays, t.tick < slot.1)
    (hlast : ∃ row, (flatSlots pool.tickSpacing arrays).getLast? = some (array.startTickIndex, row))
    (hstart : t.tick + 1 = array.startTickIndex) (hprice : sqrtPriceAtTick (t.tick + 1) = .ok t.price) :
    (flatTurn pool (flatSlots pool.tickSpacing arrays) t).toOption = none := by
  rcases hlast with ⟨row, hlast⟩
  have hnone : (flatSlots pool.tickSpacing arrays).find? (Slot.below t.tick) = none := by
    rw [List.find?_eq_none]
    intro slot hslot
    have hlt := habove slot hslot
    unfold Slot.below
    rw [decide_eq_false (by omega), Bool.false_and]
    exact Bool.false_ne_true
  unfold flatTurn flatNext
  rw [hnone, hlast]
  dsimp only [Option.map]
  cases hmove : moveTo pool.feeRate t array.startTickIndex true (.ok row) with
  | error e => rfl
  | ok u =>
    rcases moveTo_ok hmove with ⟨target, step, hmoves⟩
    have htarget : target = t.price := by
      have hpriced := hmoves.priced
      rw [← hstart, hprice] at hpriced
      exact (Except.ok.inj hpriced).symm
    subst htarget
    rcases (computeSwapStep_ok (le_refl _) hmoves.stepped).2 with hreach | hland
    · have hgoing := hmoves.going hreach.nextPrice
      cases hgoing
    · have habove := hland.above
      have hbelow := hland.below
      omega

end Turn

/-! ## The two loops -/

section Loops

variable {pool : WhirlpoolState} {arrays : List TickArrayState}

-- Only the array that holds a tick can start at it.
theorem index_unique {arrays : List TickArrayState} {spacing : ℕ} (hspacing : 0 < spacing)
    (hchain : Consecutive spacing arrays) : ∀ {i j : ℕ} {a b : TickArrayState}, arrays[i]? = some a →
      arrays[j]? = some b → a.Covers spacing b.startTickIndex → i = j := by
  have hspan : (0 : ℤ) < tickArraySize * spacing := by
    have hpos : (0 : ℤ) < spacing := by omega
    exact mul_pos (by decide) hpos
  have hordered : ∀ {i j : ℕ} {a b : TickArrayState}, arrays[i]? = some a → arrays[j]? = some b → i < j →
      b.startTickIndex + tickArraySize * spacing ≤ a.startTickIndex := by
    intro i j a b ha hb hij
    rcases List.getElem?_eq_some_iff.mp ha with ⟨hi, hget⟩
    have hdrop : Consecutive spacing (a :: arrays.drop (i + 1)) := by
      rw [← hget, ← List.drop_eq_getElem_cons hi]
      exact List.IsChain.drop hchain i
    have hmem : b ∈ arrays.drop (i + 1) := by
      apply List.mem_of_getElem? (i := j - (i + 1))
      rw [List.getElem?_drop, ← hb]
      congr 1
      omega
    exact start_le hdrop b hmem
  intro i j a b ha hb hcovers
  have hlow := hcovers.1
  have hhigh := hcovers.2
  rcases lt_trichotomy i j with hlt | heq | hgt
  · have h := hordered ha hb hlt
    omega
  · exact heq
  · have h := hordered hb ha hgt
    omega

theorem flatSlots_append (spacing : ℕ) (front back : List TickArrayState) :
    flatSlots spacing (front ++ back) = flatSlots spacing front ++ flatSlots spacing back :=
  List.flatMap_append

-- The lowest slot of the arrays is the start of the last one.
theorem getLast_flatSlots {front : List TickArrayState} {last : TickArrayState} :
    ∃ row, (flatSlots pool.tickSpacing (front ++ [last])).getLast? = some (last.startTickIndex, row) := by
  refine ⟨last.ticks.get ⟨0, by decide⟩, ?_⟩
  rw [flatSlots_append, List.getLast?_append_of_ne_nil _ flatSlots_ne_nil]
  unfold flatSlots
  rw [List.flatMap_cons, List.flatMap_nil, List.append_nil, getLast_slotsFrom]

theorem slots_from_last {spacing : ℕ} : ∀ {front : List TickArrayState} {last : TickArrayState},
    Consecutive spacing (front ++ [last]) → ∀ slot ∈ flatSlots spacing (front ++ [last]), last.startTickIndex ≤ slot.1
  | [], last, _, slot, hslot => by
    rw [List.nil_append, flatSlots, List.flatMap_cons, List.flatMap_nil, List.append_nil] at hslot
    rcases mem_slotsFrom hslot with ⟨k, -, htick⟩
    have hspan : (0 : ℤ) ≤ (k : ℤ) * spacing := by positivity
    omega
  | head :: front, last, hchain, slot, hslot => by
    rw [List.cons_append, flatSlots, List.flatMap_cons, List.mem_append] at hslot
    rcases hslot with hslot | hslot
    · rcases mem_slotsFrom hslot with ⟨k, -, htick⟩
      have hstart := start_le hchain last (by simp)
      have hspan : (0 : ℤ) ≤ (k : ℤ) * spacing := by positivity
      have hsize : (0 : ℤ) ≤ tickArraySize * spacing := by positivity
      omega
    · exact slots_from_last hchain.tail slot hslot

theorem flatCrossings_done {slots : List Slot} {allowed : ℕ} {t : SwapCore} (h : t.remaining = 0) :
    flatCrossings pool slots allowed t = [] := by
  cases allowed with
  | zero => rfl
  | succ allowed => rw [flatCrossings, if_pos h]

theorem flatCrossings_turn {slots : List Slot} {allowed : ℕ} {s t : SwapCore} (hleft : s.remaining ≠ 0)
    (hturn : flatTurn pool slots s = .ok t) : flatCrossings pool slots (allowed + 1) s =
      if t.remaining = 0 then [] else (t.tick + 1) :: flatCrossings pool slots allowed t := by
  rw [flatCrossings, if_neg hleft, hturn]

theorem swapLoop_atStart {allowed : ℕ} {s : SwapState} (hleft : s.remaining ≠ 0)
    (h : AtStart arrays s.arrayIndex s.toSwapCore) : (swapLoop pool arrays allowed s).toOption = none := by
  cases allowed with
  | zero => rw [swapLoop, if_neg hleft]; rfl
  | succ allowed =>
    have hturn : (swapTurn pool arrays s).toOption = none := swapTurn_atStart h
    rw [swapLoop, if_neg hleft]
    cases hnext : swapTurn pool arrays s with
    | error e => rfl
    | ok next => rw [hnext] at hturn; cases hturn

theorem flatLoop_below (hchain : Consecutive pool.tickSpacing arrays) {allowed : ℕ}
    {t : SwapCore} {index : ℕ} {array : TickArrayState} (hleft : t.remaining ≠ 0)
    (harray : arrays[index]? = some array) (hlast : array ∉ arrays.dropLast)
    (hstart : t.tick + 1 = array.startTickIndex) (hprice : sqrtPriceAtTick (t.tick + 1) = .ok t.price) :
    (flatLoop pool (flatSlots pool.tickSpacing arrays) allowed t).toOption = none := by
  have hmem : array ∈ arrays := List.mem_of_getElem? harray
  have hne : arrays ≠ [] := List.ne_nil_of_mem hmem
  have hsplit : arrays.dropLast ++ [array] = arrays := by
    have hall := List.dropLast_append_getLast hne
    rw [← hall, List.mem_append, List.mem_singleton] at hmem
    rcases hmem with hmem | hmem
    · exact absurd hmem hlast
    · rwa [← hmem] at hall
  cases allowed with
  | zero => rw [flatLoop, if_neg hleft]; rfl
  | succ allowed =>
    have hturn : (flatTurn pool (flatSlots pool.tickSpacing arrays) t).toOption = none := by
      refine flatTurn_below ?_ ?_ hstart hprice
      · intro slot hslot
        rw [← hsplit] at hslot hchain
        have hlow := slots_from_last hchain slot hslot
        omega
      · rw [← hsplit]
        exact getLast_flatSlots
    rw [flatLoop, if_neg hleft]
    cases hnext : flatTurn pool (flatSlots pool.tickSpacing arrays) t with
    | error e => rfl
    | ok next => rw [hnext] at hturn; cases hturn

-- Outside the arrays' starts the loops agree; once the flat loop leaves an array by its start, with input left and
-- another array below, the array search has refused.
theorem loops_agree (hspacing : 0 < pool.tickSpacing) (hchain : Consecutive pool.tickSpacing arrays) :
    ∀ (allowed : ℕ) {s : SwapState}, PriceAbove s.toSwapCore →
      (s.remaining = 0 ∨ Placed arrays pool.tickSpacing s) →
      if ∃ array ∈ arrays.dropLast, array.startTickIndex ∈
          flatCrossings pool (flatSlots pool.tickSpacing arrays) allowed s.toSwapCore
      then (swapLoop pool arrays allowed s).toOption = none
      else (swapLoop pool arrays allowed s).toOption.map SwapState.toSwapCore =
        (flatLoop pool (flatSlots pool.tickSpacing arrays) allowed s.toSwapCore).toOption := by
  intro allowed
  induction allowed with
  | zero =>
    intro s _ _
    rw [flatCrossings, if_neg (by simp), swapLoop, flatLoop]
    by_cases hdone : s.remaining = 0
    · rw [if_pos hdone, if_pos hdone]; rfl
    · rw [if_neg hdone, if_neg hdone]; rfl
  | succ allowed ih =>
    intro s habove hplace
    rw [swapLoop, flatLoop]
    by_cases hdone : s.remaining = 0
    · rw [flatCrossings_done hdone, if_pos hdone, if_pos hdone, if_neg (by simp)]; rfl
    rw [if_neg hdone, if_neg hdone]
    rcases turns_agree hspacing hchain (hplace.resolve_left hdone) habove with ⟨index, hturn, hafter⟩
    rw [hturn]
    cases hflat : flatTurn pool (flatSlots pool.tickSpacing arrays) s.toSwapCore with
    | error e =>
      rw [flatCrossings, if_neg hdone, hflat, if_neg (by simp)]
      rfl
    | ok t =>
      rw [flatCrossings_turn hdone hflat]
      rcases hafter t hflat with ⟨habove', hplace'⟩
      show if _ then (swapLoop pool arrays allowed ⟨t, index⟩).toOption = none
        else (swapLoop pool arrays allowed ⟨t, index⟩).toOption.map SwapState.toSwapCore =
          (flatLoop pool (flatSlots pool.tickSpacing arrays) allowed t).toOption
      by_cases hspent : t.remaining = 0
      · have hrest := ih (s := ⟨t, index⟩) habove' (Or.inl hspent)
        rw [flatCrossings_done hspent, if_neg (by simp)] at hrest
        rw [if_pos hspent, if_neg (by simp)]
        exact hrest
      rw [if_neg hspent]
      rcases hplace'.resolve_left hspent with ⟨array, harray, hlow, hhigh⟩ | hstart
      · -- inside an array: the tick just crossed starts none
        have hnot : ∀ other ∈ arrays.dropLast, other.startTickIndex ≠ t.tick + 1 := by
          intro other hother hsame
          rcases List.getElem?_of_mem (List.mem_of_mem_dropLast hother) with ⟨j, hj⟩
          have hindex : index = j := index_unique hspacing hchain harray hj ⟨by omega, by omega⟩
          subst hindex
          rw [harray] at hj
          have hsame' := Option.some.inj hj
          rw [hsame'] at hlow
          omega
        have hplaced : Placed arrays pool.tickSpacing ⟨t, index⟩ :=
          ⟨array, harray, by show _ ≤ t.tick; omega, by show t.tick < _; omega⟩
        have hrest := ih (s := ⟨t, index⟩) habove' (Or.inr hplaced)
        have hcrossed : (∃ other ∈ arrays.dropLast, other.startTickIndex ∈
            (t.tick + 1) :: flatCrossings pool (flatSlots pool.tickSpacing arrays) allowed t) ↔
              ∃ other ∈ arrays.dropLast, other.startTickIndex ∈
                flatCrossings pool (flatSlots pool.tickSpacing arrays) allowed t := by
          constructor
          · rintro ⟨other, hother, hcross⟩
            rcases List.mem_cons.mp hcross with hsame | hcross
            · exact absurd hsame (hnot other hother)
            · exact ⟨other, hother, hcross⟩
          · rintro ⟨other, hother, hcross⟩
            exact ⟨other, hother, List.mem_cons_of_mem _ hcross⟩
        rw [if_congr hcrossed rfl rfl]
        exact hrest
      · -- right below a start: the array search refuses, and below the last array so does the flat loop
        have hrefused : (swapLoop pool arrays allowed ⟨t, index⟩).toOption = none :=
          swapLoop_atStart (s := ⟨t, index⟩) hspent hstart
        split
        · exact hrefused
        · case isFalse hfree =>
          rcases hstart with ⟨array, harray, hat, hprice⟩
          have hlast : array ∉ arrays.dropLast := fun hmem => hfree ⟨array, hmem, by rw [hat]; simp⟩
          rw [hrefused, flatLoop_below hchain hspent harray hlast hat hprice]
          rfl

end Loops

/-! ## The flat loop takes the greatest tick -/

theorem slotsFrom_sorted {array : TickArrayState} {spacing : ℕ} (hspacing : 0 < spacing) :
    ∀ {offset : ℕ} {h : offset < tickArraySize},
      (array.slotsFrom spacing offset h).Pairwise fun upper lower => lower.1 < upper.1
  | 0, h => List.pairwise_singleton _ _
  | offset + 1, h => by
    rw [TickArrayState.slotsFrom, List.pairwise_cons]
    refine ⟨fun slot hslot => ?_, slotsFrom_sorted hspacing⟩
    rcases mem_slotsFrom hslot with ⟨k, hk, htick⟩
    have hpos : (0 : ℤ) < spacing := by omega
    have hlt : (k : ℤ) * spacing < ((offset + 1 : ℕ) : ℤ) * spacing := mul_lt_mul_of_pos_right (by omega) hpos
    dsimp only
    omega

theorem flatSlots_sorted {spacing : ℕ} (hspacing : 0 < spacing) : ∀ {arrays : List TickArrayState},
    Consecutive spacing arrays → (flatSlots spacing arrays).Pairwise fun upper lower => lower.1 < upper.1
  | [], _ => List.Pairwise.nil
  | array :: rest, hchain => by
    rw [flatSlots, List.flatMap_cons, List.pairwise_append]
    refine ⟨slotsFrom_sorted hspacing, flatSlots_sorted hspacing hchain.tail, fun upper hupper lower hlower => ?_⟩
    rcases mem_slotsFrom hupper with ⟨k, -, htick⟩
    have hbelow := slots_below_start hspacing hchain lower hlower
    have hspan : (0 : ℤ) ≤ (k : ℤ) * spacing := by positivity
    omega

-- Its next slot is the greatest initialized one at or below the tick.
theorem flatNext_greatest {spacing : ℕ} (hspacing : 0 < spacing) {arrays : List TickArrayState}
    (hchain : Consecutive spacing arrays) {tick : ℤ} {slot : Slot}
    (h : flatNext (flatSlots spacing arrays) tick = some (slot, false)) :
    slot ∈ flatSlots spacing arrays ∧ slot.2.initialized ∧ slot.1 ≤ tick ∧
      ∀ other ∈ flatSlots spacing arrays, other.2.initialized → other.1 ≤ tick → other.1 ≤ slot.1 := by
  unfold flatNext at h
  cases hfind : (flatSlots spacing arrays).find? (Slot.below tick) with
  | none =>
    rw [hfind] at h
    rcases Option.map_eq_some_iff.mp h with ⟨_, -, hbad⟩
    cases (Prod.mk.inj hbad).2
  | some found =>
    rw [hfind] at h
    cases (Prod.mk.inj (Option.some.inj h)).1
    rcases List.find?_eq_some_iff_append.mp hfind with ⟨hbelow, front, back, hsplit, hfront⟩
    simp only [Slot.below, Bool.and_eq_true, decide_eq_true_eq] at hbelow
    refine ⟨List.mem_of_find?_eq_some hfind, hbelow.2, hbelow.1, fun other hother hset hle => ?_⟩
    have hsorted := flatSlots_sorted hspacing hchain
    rw [hsplit] at hother hsorted
    rcases List.mem_append.mp hother with hother | hother
    · have hnot := hfront other hother
      simp [Slot.below, hle, hset] at hnot
    · rcases List.mem_cons.mp hother with rfl | hother
      · exact le_refl _
      · exact ((List.pairwise_cons.mp (List.pairwise_append.mp hsorted).2.1).1 other hother).le

/-! ## The quote -/

/-- **The quote follows the flat loop** except where that loop, on its way to a quote, crosses the start of the first
or the second array with input left over. -/
theorem quote_follows_flat_iff (pool : WhirlpoolState) (arrays : List TickArrayState) (amountIn : ℕ) :
    (quoteWhirlpoolExactInAToB pool arrays amountIn).toOption = (flatQuote pool arrays amountIn).toOption ↔
      (flatQuote pool arrays amountIn).toOption = none ∨ ∀ array ∈ arrays.dropLast, array.startTickIndex ∉
        flatCrossings pool (flatSlots pool.tickSpacing arrays) maxSteps (startCore pool amountIn) := by
  unfold quoteWhirlpoolExactInAToB flatQuote
  cases hadmit : admitSwap pool arrays amountIn with
  | error e => exact ⟨fun _ => Or.inl rfl, fun _ => rfl⟩
  | ok _ =>
    have hadmitted := admitSwap_ok hadmit
    have hplaced : Placed arrays pool.tickSpacing ⟨startCore pool amountIn, 0⟩ := hadmitted.covers
    have hloops := loops_agree hadmitted.spacing hadmitted.chain maxSteps hadmitted.above (Or.inr hplaced)
    dsimp only [Bind.bind, Except.bind]
    by_cases hcrossed : ∃ array ∈ arrays.dropLast, array.startTickIndex ∈
        flatCrossings pool (flatSlots pool.tickSpacing arrays) maxSteps (startCore pool amountIn)
    · rw [if_pos hcrossed] at hloops
      have hnot : ¬ ∀ array ∈ arrays.dropLast, array.startTickIndex ∉
          flatCrossings pool (flatSlots pool.tickSpacing arrays) maxSteps (startCore pool amountIn) := by
        intro hall
        rcases hcrossed with ⟨array, harray, hcross⟩
        exact hall array harray hcross
      cases hloop : swapLoop pool arrays maxSteps ⟨startCore pool amountIn, 0⟩ with
      | ok last => rw [hloop] at hloops; cases hloops
      | error e =>
        constructor
        · intro hsame
          exact Or.inl hsame.symm
        · intro hnone
          exact (hnone.resolve_right hnot).symm
    · rw [if_neg hcrossed] at hloops
      constructor
      · intro _
        exact Or.inr fun array harray hcross => hcrossed ⟨array, harray, hcross⟩
      · intro _
        cases hloop : swapLoop pool arrays maxSteps ⟨startCore pool amountIn, 0⟩ with
        | error e =>
          rw [hloop] at hloops
          cases hflat : flatLoop pool (flatSlots pool.tickSpacing arrays) maxSteps (startCore pool amountIn) with
          | error e' => rfl
          | ok last => rw [hflat] at hloops; cases hloops
        | ok last =>
          rw [hloop] at hloops
          cases hflat : flatLoop pool (flatSlots pool.tickSpacing arrays) maxSteps (startCore pool amountIn) with
          | error e' => rw [hflat] at hloops; cases hloops
          | ok last' =>
            rw [hflat] at hloops
            have hsame : last.toSwapCore = last' := Option.some.inj hloops
            rw [← hsame]

namespace Boundary

/-- A pool whose price is exactly that of tick 0, where its first array starts. -/
def pool : WhirlpoolState := ⟨"pool", 1, 3000, 10 ^ 12, 2 ^ 64, 0⟩

def ticks (initialized : ℕ → Bool) : Vector TickState tickArraySize := Vector.ofFn fun i => ⟨initialized i, 10⟩

def arrays : List TickArrayState :=
  [⟨0, "pool", ticks (· == 0)⟩, ⟨-88, "pool", ticks fun _ => false⟩, ⟨-176, "pool", ticks fun _ => false⟩]

end Boundary

open Boundary in
theorem boundary_tick_refused : quoteWhirlpoolExactInAToB pool arrays 1000 =
      blocked "Whirlpool search left the passed tick array." ∧
    (flatQuote pool arrays 1000).toOption.map (fun q => (q.amountOutAtomic, q.steps, q.initializedTicksCrossed)) =
      some (996, 2, 1) := by
  constructor <;> decide +kernel

end PaymentNode.Whirlpool
