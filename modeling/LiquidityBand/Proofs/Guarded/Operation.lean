import LiquidityBand.Proofs.Guarded.Logarithm
import LiquidityBand.Proofs.Guarded.Numeral
import LiquidityBand.Proofs.Guarded.Plan

/-!
# All exact operations with guards

The exact operations of the library as one family. Each of them, on whatever input, agrees with its
guarded form, and only one input of one operation sets off a guard: the least number of the register
of a tick, of which there is no negative.

* `Operation` is the family, `Operation.result` what an operation gives and `Operation.guarded` its
  guarded form, of which every step may report a fault;
* `Operation.isSafe` compares the two, and `Operation.guarded_eq_and_faults_iff` is the comparison
  with the one exception.
-/

namespace LiquidityBand

namespace Guarded

/-! ### Wide numbers -/

/-- No word counts. -/
def isZeroWords (ws : List UInt64) : Except Error Bool := do return (← wordCount ws) == 0

section
variable (n divisor : Wide)

theorem isZeroWords_isSafe : IsSafe (isZeroWords n.words) (.ok n.isZero) := by
  obtain ⟨m, hm, hzero⟩ := wordCount_bne_zero n
  refine isSafe_of_eq_ok ?_ rfl
  rw [isZeroWords, hm]
  exact congrArg Except.ok (Bool.not_inj hzero)

theorem narrow_isSafe : IsSafe (narrow n.words) n.toUInt256 := by
  rw [narrow_eq, Wide.toUInt256_eq]
  exact isSafe_fit (by decide)

theorem divideWords_isSafe (withRemainder : Bool) :
    IsSafe (divideWords n.words divisor.words withRemainder) (do
      let d ← n.divide divisor withRemainder
      return (d.quotient.words, d.remainder.words)) := by
  rw [divideWords_eq]
  by_cases h : divisor.toNat = 0
  · rw [Wide.divide_eq_error h]
    exact isSafe_refusal (by decide)
  · rw [Wide.divide_eq_ok h]
    exact isSafe_ok _

end

end Guarded

/-! ### The family -/

/-- An exact operation with its input, by the type of its result. A wide number is its words, and
the logarithm that finds the ticks of prices is an input. -/
inductive Operation : Type → Type where
  -- ticks
  | inBounds (t : Tick) : Operation Bool
  | isAligned (t spacing : Tick) : Operation Bool
  | sqrtPrice (t : Tick) : Operation SqrtPrice
  | ofSqrtPrice (x : SqrtPrice) : Operation Tick
  | alignDown (t spacing : Tick) : Operation Tick
  | alignUp (t spacing : Tick) : Operation Tick
  | align (t spacing : Tick) (rounding : Rounding) : Operation Tick
  | alignBand (band : TickBand) (spacing : Tick) : Operation TickBand
  | fullBand (spacing : Tick) : Operation TickBand
  | ordered (a b : Tick) : Operation TickBand
  | invert (t : Tick) : Operation Tick
  -- positions
  | status (current : SqrtPrice) (a b : Tick) : Operation Status
  | isInRange (current : SqrtPrice) (a b : Tick) : Operation Bool
  -- liquidity
  | ofDeposit (amount : Amount) (r : SqrtRange) : Operation Liquidity
  | requiredAmount (liquidity : Liquidity) (r : SqrtRange) : Operation Amount
  | ofAmount0 (r : SqrtRange) (amount : Amount) : Operation Liquidity
  | ofAmount1 (r : SqrtRange) (amount : Amount) : Operation Liquidity
  | ofAmounts (current : SqrtPrice) (r : SqrtRange) (pair : AmountPair) : Operation Liquidity
  | amount0 (r : SqrtRange) (liquidity : Liquidity) (roundUp : Bool) : Operation Amount
  | amount1 (r : SqrtRange) (liquidity : Liquidity) (roundUp : Bool) : Operation Amount
  | amounts (current : SqrtPrice) (r : SqrtRange) (liquidity : Liquidity) (roundUp : Bool) :
      Operation AmountPair
  -- wide numbers
  | ofHalves (high low : UInt256) : Operation (List UInt64)
  | ofUInt256 (x : UInt256) : Operation (List UInt64)
  | shiftLeft (n : Wide) (k : Nat) : Operation (List UInt64)
  | shiftRight (n : Wide) (k : Nat) : Operation (List UInt64)
  | toUInt256 (n : Wide) : Operation UInt256
  | isZero (n : Wide) : Operation Bool
  | mul (a b : Wide) : Operation (List UInt64)
  | divide (n divisor : Wide) (withRemainder : Bool) : Operation (List UInt64 × List UInt64)
  | ofProduct (a b : UInt256) : Operation (List UInt64)
  | productQuotient (a b d : UInt256) (roundUp : Bool) : Operation UInt256
  | fixedProduct (a b : UInt256) (roundUp : Bool) : Operation UInt256
  | numeral (n : Wide) : Operation String
  -- amounts
  | parse (text : String) (decimals : UInt8) : Operation Amount
  | format (amount : Amount) (decimals : UInt8) : Operation String
  | rescale (amount : Amount) (source target : UInt8) : Operation Amount
  -- plans
  | planOfTicks (band : TickBand) (amount : Amount) (config : Config) : Operation Plan
  | planOfPrices (ln : Float → Float) (lower upper : Float) (amount : Amount) (config : Config) :
      Operation Plan
  | planOfDefault (amount : Amount) (config : Config) : Operation Plan
  | planOfMargin (margin : Amount) (config : Config) : Operation Plan
  | required (p : Plan) : Operation Amount

namespace Operation

open PlanError (ofCore)

/-- What an operation gives. -/
def result : {α : Type} → Operation α → Except PlanError α
  | _, inBounds t => .ok t.inBounds
  | _, isAligned t spacing => .ok (t.isAligned spacing)
  | _, sqrtPrice t => ofCore t.sqrtPrice
  | _, ofSqrtPrice x => ofCore (Tick.ofSqrtPrice x)
  | _, alignDown t spacing => ofCore (t.alignDown spacing)
  | _, alignUp t spacing => ofCore (t.alignUp spacing)
  | _, align t spacing rounding => ofCore (t.align spacing rounding)
  | _, alignBand band spacing => ofCore (band.align spacing)
  | _, fullBand spacing => ofCore (TickBand.full spacing)
  | _, ordered a b => .ok (TickBand.ordered a b)
  | _, invert t => ofCore t.invert
  | _, status current a b => .ok (Status.ofTicks current a b)
  | _, isInRange current a b => .ok (Status.isInRange current a b)
  | _, ofDeposit amount r => ofCore (Liquidity.ofDeposit amount r)
  | _, requiredAmount liquidity r => ofCore (Liquidity.required liquidity r)
  | _, ofAmount0 r amount => ofCore (Liquidity.ofAmount0 r amount)
  | _, ofAmount1 r amount => ofCore (Liquidity.ofAmount1 r amount)
  | _, ofAmounts current r pair => ofCore (Liquidity.ofAmounts current r pair)
  | _, amount0 r liquidity roundUp => ofCore (Liquidity.amount0 r liquidity roundUp)
  | _, amount1 r liquidity roundUp => ofCore (Liquidity.amount1 r liquidity roundUp)
  | _, amounts current r liquidity roundUp => ofCore (Liquidity.amounts current r liquidity roundUp)
  | _, ofHalves high low => .ok (Wide.ofHalves high low).words
  | _, ofUInt256 x => .ok (Wide.ofUInt256 x).words
  | _, shiftLeft n k => .ok (n.shiftLeft k).words
  | _, shiftRight n k => .ok (n.shiftRight k).words
  | _, toUInt256 n => ofCore n.toUInt256
  | _, isZero n => .ok n.isZero
  | _, mul a b => .ok (a.mul b).words
  | _, divide n divisor withRemainder => ofCore do
      let d ← n.divide divisor withRemainder
      return (d.quotient.words, d.remainder.words)
  | _, ofProduct a b => .ok (Wide.ofProduct a b).words
  | _, productQuotient a b d roundUp => ofCore (LiquidityBand.productQuotient a b d roundUp)
  | _, fixedProduct a b roundUp => ofCore (LiquidityBand.fixedProduct a b roundUp)
  | _, numeral n => ofCore n.numeral
  | _, parse text decimals => (Amount.parse text decimals).mapError .amount
  | _, format amount decimals => .ok (Amount.format amount decimals)
  | _, rescale amount source target => (Amount.rescale amount source target).mapError .amount
  | _, planOfTicks band amount config => (Plan.ofTicks band amount config).result
  | _, planOfPrices ln lower upper amount config =>
      (Plan.ofPricesBy ln lower upper amount config).result
  | _, planOfDefault amount config => (Plan.default amount config).result
  | _, planOfMargin margin config => (Plan.ofMargin margin config).result
  | _, required p => p.required

/-- The operation with a guard at each of its steps. -/
def guarded : {α : Type} → Operation α → Except PlanError α
  | _, inBounds t => .ok t.inBounds
  | _, isAligned t spacing => ofCore (Guarded.isAligned t spacing)
  | _, sqrtPrice t => ofCore (Guarded.sqrtPrice t)
  | _, ofSqrtPrice x => ofCore (Guarded.ofSqrtPrice x)
  | _, alignDown t spacing => ofCore (Guarded.alignDown t spacing)
  | _, alignUp t spacing => ofCore (Guarded.alignUp t spacing)
  | _, align t spacing rounding => ofCore (Guarded.align t spacing rounding)
  | _, alignBand band spacing => ofCore (Guarded.alignBand band spacing)
  | _, fullBand spacing => ofCore (Guarded.fullBand spacing)
  | _, ordered a b => .ok (TickBand.ordered a b)
  | _, invert t => ofCore (Guarded.invert t)
  | _, status current a b => ofCore (Guarded.status current a b)
  | _, isInRange current a b => ofCore (Guarded.isInRange current a b)
  | _, ofDeposit amount r => ofCore (Guarded.ofAmount1 r amount)
  | _, requiredAmount liquidity r => ofCore (Guarded.amount1 r liquidity true)
  | _, ofAmount0 r amount => ofCore (Guarded.ofAmount0 r amount)
  | _, ofAmount1 r amount => ofCore (Guarded.ofAmount1 r amount)
  | _, ofAmounts current r pair => ofCore (Guarded.ofAmounts current r pair)
  | _, amount0 r liquidity roundUp => ofCore (Guarded.amount0 r liquidity roundUp)
  | _, amount1 r liquidity roundUp => ofCore (Guarded.amount1 r liquidity roundUp)
  | _, amounts current r liquidity roundUp => ofCore (Guarded.amounts current r liquidity roundUp)
  | _, ofHalves high low => ofCore (Guarded.halvesWords high low)
  | _, ofUInt256 x => ofCore (Guarded.halvesWords 0 x)
  | _, shiftLeft n k => ofCore (Guarded.shiftWordsUp n.words k)
  | _, shiftRight n k => ofCore (Guarded.shiftWordsDown n.words k)
  | _, toUInt256 n => ofCore (Guarded.narrow n.words)
  | _, isZero n => ofCore (Guarded.isZeroWords n.words)
  | _, mul a b => ofCore (Guarded.product a.words b.words)
  | _, divide n divisor withRemainder =>
      ofCore (Guarded.divideWords n.words divisor.words withRemainder)
  | _, ofProduct a b => ofCore (Guarded.wideProduct a b)
  | _, productQuotient a b d roundUp => ofCore (Guarded.productQuotient a b d roundUp)
  | _, fixedProduct a b roundUp => ofCore (Guarded.fixedProduct a b roundUp)
  | _, numeral n => ofCore (Guarded.numeral n.words)
  | _, parse text decimals => (Guarded.parse text decimals).mapError .amount
  | _, format amount decimals => ofCore (Guarded.format amount decimals)
  | _, rescale amount source target => (Guarded.rescale amount source target).mapError .amount
  | _, planOfTicks band amount config => Guarded.planOfTicks band amount config
  | _, planOfPrices ln lower upper amount config =>
      Guarded.planOfPrices ln lower upper amount config
  | _, planOfDefault amount config => Guarded.planOfDefault amount config
  | _, planOfMargin margin config => Guarded.planOfMargin margin config
  | _, required p => Guarded.required p

/-- The inversion of the least number of its register. -/
def InvertsLeast : {α : Type} → Operation α → Prop
  | _, invert t => t = Int32.minValue
  | _, _ => False

/-- A guard of the operation reports a fault. -/
def Faults {α : Type} (o : Operation α) : Prop :=
  ∃ e, o.guarded = .error e ∧ Guarded.Faulty.isFault e

open Guarded

theorem isSafe {α : Type} (o : Operation α) (h : ¬o.InvertsLeast) :
    IsSafe o.guarded o.result := by
  cases o with
  | inBounds t => exact isSafe_ok _
  | isAligned t spacing => exact (isAligned_isSafe t spacing).ofCore
  | sqrtPrice t => exact (sqrtPrice_isSafe t).ofCore
  | ofSqrtPrice x => exact (ofSqrtPrice_isSafe x).ofCore
  | alignDown t spacing => exact (alignDown_isSafe t spacing).ofCore
  | alignUp t spacing => exact (alignUp_isSafe t spacing).ofCore
  | align t spacing rounding => exact (align_isSafe t spacing rounding).ofCore
  | alignBand band spacing => exact (alignBand_isSafe spacing band).ofCore
  | fullBand spacing => exact (fullBand_isSafe spacing).ofCore
  | ordered a b => exact isSafe_ok _
  | invert t => exact (invert_isSafe h).ofCore
  | status current a b => exact (status_isSafe current a b).ofCore
  | isInRange current a b => exact (isInRange_isSafe current a b).ofCore
  | ofDeposit amount r => exact (ofAmount1_isSafe r amount).ofCore
  | requiredAmount liquidity r => exact (amount1_isSafe r liquidity true).ofCore
  | ofAmount0 r amount => exact (ofAmount0_isSafe r amount).ofCore
  | ofAmount1 r amount => exact (ofAmount1_isSafe r amount).ofCore
  | ofAmounts current r pair => exact (ofAmounts_isSafe current r pair).ofCore
  | amount0 r liquidity roundUp => exact (amount0_isSafe r liquidity roundUp).ofCore
  | amount1 r liquidity roundUp => exact (amount1_isSafe r liquidity roundUp).ofCore
  | amounts current r liquidity roundUp =>
    exact (amounts_isSafe current r liquidity roundUp).ofCore
  | ofHalves high low => exact (isSafe_of_eq_ok (halvesWords_eq high low) rfl).ofCore
  | ofUInt256 x => exact (isSafe_of_eq_ok (halvesWords_eq 0 x) rfl).ofCore
  | shiftLeft n k => exact (isSafe_of_eq_ok (shiftWordsUp_eq n k) rfl).ofCore
  | shiftRight n k => exact (isSafe_of_eq_ok (shiftWordsDown_eq n k) rfl).ofCore
  | toUInt256 n => exact (narrow_isSafe n).ofCore
  | isZero n => exact (isZeroWords_isSafe n).ofCore
  | mul a b => exact (isSafe_of_eq_ok (product_eq a b) rfl).ofCore
  | divide n divisor withRemainder => exact (divideWords_isSafe n divisor withRemainder).ofCore
  | ofProduct a b => exact (isSafe_of_eq_ok (wideProduct_eq a b) rfl).ofCore
  | productQuotient a b d roundUp => exact productQuotient_isSafe.ofCore
  | fixedProduct a b roundUp => exact fixedProduct_isSafe.ofCore
  | numeral n =>
    obtain ⟨text, hguarded, hresult⟩ := exists_numeral n
    exact (isSafe_of_eq_ok hguarded hresult).ofCore
  | parse text decimals => exact (parse_isSafe text decimals).mapError fun _ h => h
  | format amount decimals => exact (format_isSafe amount decimals).ofCore
  | rescale amount source target =>
    exact (rescale_isSafe amount source target).mapError fun _ h => h
  | planOfTicks band amount config => exact areSafe_guardedSteps.ofTicks band amount config
  | planOfPrices ln lower upper amount config =>
    exact areSafe_guardedSteps.ofPrices ln lower upper amount config
  | planOfDefault amount config => exact areSafe_guardedSteps.default amount config
  | planOfMargin margin config => exact areSafe_guardedSteps.ofMargin margin config
  | required p => exact required_isSafe p

/-- Every operation agrees with its guarded form, and a guard is set off by nothing but the
inversion of the least number. -/
theorem guarded_eq_and_faults_iff {α : Type} (o : Operation α) :
    o.guarded = o.result ∧ (o.Faults ↔ o.InvertsLeast) := by
  by_cases h : o.InvertsLeast
  · cases o with
    | invert t =>
      have heq : (Operation.invert t).guarded = (Operation.invert t).result :=
        congrArg ofCore (invert_eq t)
      refine ⟨heq, iff_of_true ⟨.core .fault, ?_, rfl⟩ h⟩
      rw [heq, result, (invert_eq_fault_iff t).mpr h]
      rfl
    | _ => exact h.elim
  · obtain ⟨heq, hfault⟩ := o.isSafe h
    refine ⟨heq, iff_of_false ?_ h⟩
    rintro ⟨e, he, hbad⟩
    exact hfault e (heq ▸ he) hbad

end Operation

end LiquidityBand
