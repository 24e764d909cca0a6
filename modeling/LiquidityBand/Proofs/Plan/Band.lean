import LiquidityBand.Plan.Band
import LiquidityBand.Proofs.Liquidity.Deposit
import LiquidityBand.Proofs.Tick.Alignment
import LiquidityBand.Proofs.Tick.Range

/-!
# Plans over a band of ticks

The parameters are checked, the band is aligned, its ends are priced, and the deposit is turned
into liquidity. The prices of ascending ticks always make a range that a pool can store, so the
formulas of one token hold for every plan.

* `Plan.Steps.ofBand` is planning without the parameters and the reports, whatever the operations,
  by `Plan.Steps.ofTicks_result`, and `Plan.ofBand` that with the exact ones;
* `Plan.IsOfAligned` is what a plan holds after the alignment, and `Plan.IsOver` what it holds of
  its band;
* `Plan.IsSound` is what every plan keeps to, and `Plan.ofTicks_isSound` says that it does.
-/

namespace LiquidityBand

namespace Logged
variable {α β : Type}

/-- The result of one computation after another is one result after another. -/
theorem result_bind (x : Logged α) (f : α → Logged β) :
    (x >>= f).result = x.result >>= fun a => (f a).result := by
  obtain ⟨entries, result⟩ := x
  cases result with
  | error e => rfl
  | ok a => rfl

@[simp] theorem result_ofResult (r : Except PlanError α) : (ofResult r).result = r := rfl

@[simp] theorem result_ofCore (r : Except Error α) : (ofCore r).result = PlanError.ofCore r := rfl

end Logged

namespace PlanError
variable {α : Type}

@[simp] theorem ofCore_ok (a : α) : ofCore (.ok a) = .ok a := rfl

@[simp] theorem ofCore_error (e : Error) :
    (ofCore (.error e) : Except PlanError α) = .error (.core e) := rfl

end PlanError

namespace Plan

section
variable {ticks band : TickBand} {amount : Amount} {config : Config} {p : Plan}

/-! ### After the alignment -/

/-- The plan holds the ticks, their prices, the deposit and its liquidity. -/
structure IsOfAligned (p : Plan) (ticks : TickBand) (amount : Amount) : Prop where
  ticks_eq : p.ticks = ticks
  lower : ticks.lower.sqrtPrice = .ok p.sqrtPrices.lower
  upper : ticks.upper.sqrtPrice = .ok p.sqrtPrices.upper
  amount_eq : p.amount = amount
  liquidity : Liquidity.ofDeposit amount p.sqrtPrices = .ok p.liquidity

theorem isOfAligned (h : ofAligned ticks amount = .ok p) : p.IsOfAligned ticks amount := by
  simp only [ofAligned, Steps.ofAligned, exactSteps_sqrtPrice, exactSteps_ofDeposit,
    bind_eq_ok_iff] at h
  obtain ⟨lower, hlower, upper, hupper, liquidity, hliquidity, hp⟩ := h
  obtain rfl := Except.ok.inj hp
  exact ⟨rfl, hlower, hupper, rfl, hliquidity⟩

/-- The deposit covers what the liquidity of the plan needs. -/
theorem IsOfAligned.exists_required (h : p.IsOfAligned ticks amount)
    (hlt : ticks.lower < ticks.upper) : ∃ a, p.required = .ok a ∧ a ≤ amount := by
  have hr : p.sqrtPrices.IsStored := isStored_of_sqrtPrice h.lower h.upper hlt
  obtain ⟨a, ha, hle⟩ := (Liquidity.le_ofDeposit_iff hr h.liquidity).mp (BitVec.le_refl _)
  refine ⟨a, ?_, hle⟩
  rw [required, ha]
  rfl

/-! ### The whole of planning -/

namespace Steps
variable (s : Steps)

/-- Planning without the parameters and the reports. -/
def ofBand (band : TickBand) (spacing : Tick) (amount : Amount) : Except Error Plan :=
  if band.upper < band.lower then .error .emptyTickBand
  else s.align band spacing >>= fun ticks => s.ofAligned ticks amount

theorem ofTicks_result (band : TickBand) (amount : Amount) (config : Config) :
    (s.ofTicks band amount config).result = s.validate config >>= fun _ =>
      PlanError.ofCore (s.ofBand band config.tickSpacing amount) := by
  rw [ofTicks, Logged.result_bind, Logged.result_ofResult]
  congr 1
  funext _
  rw [ofBand]
  by_cases hlt : band.upper < band.lower
  · rw [if_pos hlt, if_pos hlt, Logged.result_ofCore]
  · rw [if_neg hlt, if_neg hlt, Logged.result_bind, Logged.result_ofCore]
    cases s.align band config.tickSpacing with
    | error e => rfl
    | ok ticks =>
      -- the report of a widened band comes first, and changes no result
      simp only [PlanError.ofCore, Except.mapError, ok_bind]
      cases s.ofAligned ticks amount with
      | error e => split_ifs <;> rfl
      | ok plan => split_ifs <;> rfl

theorem ofPrices_result (ln : Float → Float) (lower upper : Float) (amount : Amount)
    (config : Config) : (s.ofPrices ln lower upper amount config).result =
      PlanError.ofCore (ticksOfPricesBy ln lower upper) >>= fun band =>
        (s.ofTicks band amount config).result := by
  rw [ofPrices, Logged.result_bind, Logged.result_ofCore]
  rfl

theorem ofMargin_result (margin : Amount) (config : Config) :
    (s.ofMargin margin config).result =
      (s.rescale margin config.marginDecimals config.depositDecimals).mapError
        PlanError.amount >>= fun amount => (s.default amount config).result := by
  rw [ofMargin, Logged.result_bind, Logged.result_ofResult]

end Steps

/-- Planning with the exact operations, without the parameters and the reports. -/
def ofBand (band : TickBand) (spacing : Tick) (amount : Amount) : Except Error Plan :=
  exactSteps.ofBand band spacing amount

theorem ofBand_of_lt {spacing : Tick} (h : band.upper < band.lower) (amount : Amount) :
    ofBand band spacing amount = .error .emptyTickBand := if_pos h

theorem ofBand_of_le {spacing : Tick} (h : band.lower ≤ band.upper) (amount : Amount) :
    ofBand band spacing amount =
      band.align spacing >>= fun ticks => ofAligned ticks amount :=
  if_neg (Int32.not_lt.mpr h)

theorem ofTicks_result (band : TickBand) (amount : Amount) (config : Config) :
    (ofTicks band amount config).result = config.validate.mapError PlanError.config >>= fun _ =>
      PlanError.ofCore (ofBand band config.tickSpacing amount) :=
  exactSteps.ofTicks_result band amount config

theorem ofTicks_result_of_error {problem : ConfigProblem} (h : config.validate = .error problem)
    (band : TickBand) (amount : Amount) :
    (ofTicks band amount config).result = .error (.config problem) := by
  rw [ofTicks_result, h]
  rfl

/-- There are plans only for usable parameters. -/
theorem validate_of_ofTicks (h : (ofTicks band amount config).result = .ok p) :
    config.validate = .ok () := by
  cases hv : config.validate with
  | error problem =>
    rw [ofTicks_result_of_error hv] at h
    cases h
  | ok u => rfl

theorem ofTicks_result_of_ok (h : config.validate = .ok ()) (band : TickBand) (amount : Amount) :
    (ofTicks band amount config).result =
      PlanError.ofCore (ofBand band config.tickSpacing amount) := by
  rw [ofTicks_result, h]
  rfl

theorem ofBand_eq_ok {spacing : Tick} (h : ofBand band spacing amount = .ok p) :
    band.lower ≤ band.upper ∧
      ∃ ticks, band.align spacing = .ok ticks ∧ p.IsOfAligned ticks amount := by
  by_cases hlt : band.upper < band.lower
  · rw [ofBand_of_lt hlt] at h
    cases h
  · have hle := Int32.not_lt.mp hlt
    rw [ofBand_of_le hle, bind_eq_ok_iff] at h
    obtain ⟨ticks, halign, hp⟩ := h
    exact ⟨hle, ticks, halign, isOfAligned hp⟩

theorem ofTicks_eq_ok (h : (ofTicks band amount config).result = .ok p) :
    ofBand band config.tickSpacing amount = .ok p := by
  rw [ofTicks_result_of_ok (validate_of_ofTicks h)] at h
  exact mapError_eq_ok_iff.mp h

/-- The plan is made over the band: its ticks are those of the band, aligned outward, and it holds
their prices and what the deposit gives. -/
structure IsOver (p : Plan) (band : TickBand) (amount : Amount) (spacing : Tick) : Prop where
  spacing_pos : 0 < spacing
  widened : band.IsWidened p.ticks spacing
  ascending : p.ticks.lower < p.ticks.upper
  made : p.IsOfAligned p.ticks amount

theorem isOver_of_ofTicks (h : (ofTicks band amount config).result = .ok p) :
    p.IsOver band amount config.tickSpacing := by
  obtain ⟨-, ticks, halign, hp⟩ := ofBand_eq_ok (ofTicks_eq_ok h)
  obtain ⟨hs, hw, hlt⟩ := TickBand.align_eq_ok_iff.mp halign
  obtain rfl := hp.ticks_eq
  exact ⟨hs, hw, hlt, hp⟩

theorem IsOver.isStored {spacing : Tick} (h : p.IsOver band amount spacing) :
    p.sqrtPrices.IsStored :=
  isStored_of_sqrtPrice h.made.lower h.made.upper h.ascending

/-- The plan encloses the band as narrowly as the tick spacing allows, its prices are those of its
ticks, and its liquidity is all that the deposit pays for, at whatever price. -/
structure IsSound (p : Plan) (band : TickBand) (amount : Amount) (spacing : Tick) : Prop where
  lower_le : p.ticks.lower ≤ band.lower
  ordered : band.lower ≤ band.upper
  le_upper : band.upper ≤ p.ticks.upper
  lower_multiple : spacing.toInt ∣ p.ticks.lower.toInt
  upper_multiple : spacing.toInt ∣ p.ticks.upper.toInt
  lower_near : band.lower.toInt - p.ticks.lower.toInt < spacing.toInt
  upper_near : p.ticks.upper.toInt - band.upper.toInt < spacing.toInt
  lower_price : p.ticks.lower.sqrtPrice = .ok p.sqrtPrices.lower
  upper_price : p.ticks.upper.sqrtPrice = .ok p.sqrtPrices.upper
  min_le : minSqrtPrice ≤ p.sqrtPrices.lower
  prices_lt : p.sqrtPrices.lower < p.sqrtPrices.upper
  le_max : p.sqrtPrices.upper ≤ maxSqrtPrice
  amount_eq : p.amount = amount
  covered : ∃ a, p.required = .ok a ∧ a ≤ amount
  greatest : ∀ l : Liquidity, (∃ a, l.required p.sqrtPrices = .ok a ∧ a ≤ amount) → l ≤ p.liquidity
  solvent : ∀ current held, Liquidity.amounts current p.sqrtPrices p.liquidity true = .ok held →
    held.amount1 ≤ amount

/-- Every plan is sound. -/
theorem ofTicks_isSound (band : TickBand) (amount : Amount) (config : Config) (p : Plan)
    (h : (ofTicks band amount config).result = .ok p) :
    p.IsSound band amount config.tickSpacing := by
  obtain ⟨hle, ticks, halign, hp⟩ := ofBand_eq_ok (ofTicks_eq_ok h)
  obtain ⟨hs, hw, hlt⟩ := TickBand.align_eq_ok_iff.mp halign
  obtain rfl := hp.ticks_eq
  have hd := Tick.toInt_pos hs
  have hr : p.sqrtPrices.IsStored := isStored_of_sqrtPrice hp.lower hp.upper hlt
  have hpays := Liquidity.le_ofDeposit_iff (l := p.liquidity) hr hp.liquidity
  obtain ⟨a, ha, hle'⟩ := hpays.mp (BitVec.le_refl _)
  constructor
  case lower_le =>
    rw [Int32.le_iff_toInt_le, hw.lower]
    exact multipleBelow_le hd
  case ordered => exact hle
  case le_upper =>
    rw [Int32.le_iff_toInt_le, hw.upper]
    exact le_multipleAbove hd
  case lower_multiple => exact hw.lower ▸ dvd_multipleBelow _ _
  case upper_multiple => exact hw.upper ▸ dvd_multipleAbove _ _
  case lower_near =>
    rw [hw.lower, sub_lt_iff_lt_add']
    exact lt_multipleBelow_add hd
  case upper_near =>
    rw [hw.upper, sub_lt_iff_lt_add']
    exact multipleAbove_lt_add hd
  case lower_price => exact hp.lower
  case upper_price => exact hp.upper
  case min_le => exact (Tick.sqrtPrice_bounds hp.lower).1
  case prices_lt => exact BitVec.lt_def.mpr hr.lt
  case le_max => exact (Tick.sqrtPrice_bounds hp.upper).2
  case amount_eq => exact hp.amount_eq
  case covered =>
    refine ⟨a, ?_, hle'⟩
    rw [required, ha]
    rfl
  case greatest =>
    intro l hl
    exact (Liquidity.le_ofDeposit_iff hr hp.liquidity).mpr hl
  case solvent =>
    intro current held hheld
    exact Liquidity.amounts_le_of_mul_le hr ((Liquidity.required_le_iff hr).mp ⟨a, ha, hle'⟩) hheld

/-- A plan of 1000000 units over a band that is widened on both sides. -/
theorem isSound_around_zero :
    (ofTicks ⟨-100, 100⟩ 1000000 Config.default).result =
        .ok ⟨⟨-120, 120⟩, ⟨0xfe77fb17f2034a884ca7802a, 0x1018a60d3e16e82731bac8516⟩, 1000000,
          0x4f79f27⟩ ∧
      IsSound ⟨⟨-120, 120⟩, ⟨0xfe77fb17f2034a884ca7802a, 0x1018a60d3e16e82731bac8516⟩, 1000000,
        0x4f79f27⟩ ⟨-100, 100⟩ 1000000 30 :=
  ⟨rfl, ofTicks_isSound _ _ Config.default _ rfl⟩

end

end Plan

end LiquidityBand
