import LiquidityBand.Proofs.Plan.Band
import LiquidityBand.Proofs.Tick.Accuracy

/-!
# Plans over a band of prices

Both ends of a band of prices are first taken down to a tick, and only then is the band of ticks
aligned outward. At the lower end the two roundings go the same way, so the plan starts at or below
the lower price. At the upper end the second one makes up for the first, unless the tick below the
upper price is aligned already: then nothing is rounded up, and the plan ends at that tick, short of
the price by less than one tick.

The logarithm that finds the ticks is a parameter here. All that is assumed of it is that it finds
the right ticks of the two prices at hand. No logarithm finds that of every price: the double
nearest to 1.0001, by the logarithm of which the others are divided, always comes out at tick 1, but
it lies below 10001 / 10000, the price of that tick.

* `Tick.IsAtOrBelow` says which tick a price has, in exact fractions;
* `Price.IsExactAt` says that a logarithm finds the tick of a price;
* `Plan.ofPricesBy_isEnclosing` says how a plan lies around the prices, and
  `Plan.ofPrices_below_upper` that it need not contain them.
-/

namespace LiquidityBand

/-! ### The tick of a price -/

namespace Tick

/-- The tick is the greatest one whose price is at most the given one. -/
def IsAtOrBelow (t : Tick) (price : ℚ) : Prop :=
  IsGreatest {z : ℤ | (10001 / 10000 : ℚ) ^ z ≤ price} t.toInt

section
variable {t : Tick} {price : ℚ} {z : ℤ}

theorem zpow_le_gridPrice (h : z ≤ t.toInt) : (10001 / 10000 : ℚ) ^ z ≤ gridPrice t :=
  zpow_le_zpow_right₀ (by norm_num) h

/-- A price lies between those of its tick and of the next one. -/
theorem isAtOrBelow_iff : t.IsAtOrBelow price ↔
    gridPrice t ≤ price ∧ price < (10001 / 10000 : ℚ) ^ (t.toInt + 1) := by
  constructor
  · rintro ⟨hle, hgreatest⟩
    refine ⟨hle, lt_of_not_ge fun hnext => ?_⟩
    have := hgreatest hnext
    omega
  · rintro ⟨hle, hlt⟩
    refine ⟨hle, fun z hz => ?_⟩
    by_contra hz'
    exact absurd hlt (not_lt_of_ge ((zpow_le_zpow_right₀ (by norm_num) (by omega)).trans hz))

instance : Decidable (t.IsAtOrBelow price) := decidable_of_iff _ isAtOrBelow_iff.symm

end

end Tick

/-! ### Finding the tick -/

namespace Price

/-- The tick that is found for the price, if one is, is the tick at or below its exact value. -/
def IsExactAt (ln : Float → Float) (price : Float) : Prop :=
  ∀ t x, toTickBy ln price = .ok t → Double.value? price = some x → t.IsAtOrBelow x

section
variable {ln : Float → Float} {price : Float} {t : Tick} {x : ℚ}

/-- Only finite doubles have a tick. -/
theorem exists_value_of_toTickBy (h : toTickBy ln price = .ok t) :
    ∃ x, Double.value? price = some x := by
  rw [toTickBy] at h
  split_ifs at h with hpos
  rw [Bool.not_eq_true, Bool.not_eq_false', isPositive, Option.any_eq_true] at hpos
  obtain ⟨n, hn, -⟩ := hpos
  exact ⟨_, by rw [Double.value?, hn]; rfl⟩

theorem isExactAt_of (ht : toTickBy ln price = .ok t) (hx : Double.value? price = some x)
    (h : t.IsAtOrBelow x) : IsExactAt ln price := by
  intro t' x' ht' hx'
  obtain rfl := eq_of_eq_ok ht ht'
  obtain rfl := Option.some.inj (hx.symm.trans hx')
  exact h

/-- The price 1023 / 1024 is found to be that of tick -10, which it is. -/
theorem isExactAt_below_one : IsExactAt Double.ln 0.9990234375 :=
  isExactAt_of (t := -10) (x := 1023 / 1024) (by decide +kernel) (by decide +kernel)
    (by decide +kernel)

/-- The price 1.0001, as a double, is found to be that of tick 1, but is less. -/
example : ¬IsExactAt Double.ln tickRatio := by
  intro h
  have htick := h 1 (4504049987333233 / 4503599627370496) (by decide +kernel) (by decide +kernel)
  revert htick
  decide +kernel

end

end Price

/-! ### Planning -/

namespace Plan

/-- How a plan lies around the prices from `a` to `b`, for `t` the tick at or below `b`. -/
structure IsEnclosing (p : Plan) (a b : ℚ) (t spacing : Tick) : Prop where
  lower_le : p.ticks.lower.gridPrice ≤ a
  le_upper : ¬(t.isAligned spacing ∧ t.gridPrice < b) → b ≤ p.ticks.upper.gridPrice
  upper_eq : t.isAligned spacing → p.ticks.upper = t
  lt_next : b < 10001 / 10000 * p.ticks.upper.gridPrice

section
variable {ln : Float → Float} {lower upper : Float} {band : TickBand} {amount : Amount}
  {config : Config} {p : Plan} {a b : ℚ} {spacing : Tick}

theorem ticksOfPricesBy_eq_ok (h : ticksOfPricesBy ln lower upper = .ok band) :
    Price.toTickBy ln lower = .ok band.lower ∧ Price.toTickBy ln upper = .ok band.upper := by
  rw [ticksOfPricesBy] at h
  split_ifs at h with hunusable
  · cases h
  · dsimp only at h
    simp only [bind_eq_ok_iff] at h
    obtain ⟨a, ha, b, hb, hband⟩ := h
    obtain rfl := Except.ok.inj hband
    exact ⟨ha, hb⟩

/-- A plan over a band of prices is one over the ticks at or below its ends. -/
theorem ofPricesBy_eq_ok (h : (ofPricesBy ln lower upper amount config).result = .ok p) :
    ∃ band, Price.toTickBy ln lower = .ok band.lower ∧ Price.toTickBy ln upper = .ok band.upper ∧
      (ofTicks band amount config).result = .ok p := by
  rw [ofPricesBy, Steps.ofPrices_result, bind_eq_ok_iff] at h
  obtain ⟨band, hband, hp⟩ := h
  obtain ⟨hlower, hupper⟩ := ticksOfPricesBy_eq_ok (mapError_eq_ok_iff.mp hband)
  exact ⟨band, hlower, hupper, hp⟩

/-- Once the ticks are found, the plan is one over them. -/
theorem ofPricesBy_of_ticks (hband : ticksOfPricesBy ln lower upper = .ok band)
    (hp : (ofTicks band amount config).result = .ok p) :
    (ofPricesBy ln lower upper amount config).result = .ok p := by
  rw [ofPricesBy, Steps.ofPrices_result, hband]
  exact hp

/-- The ticks of a plan are those of its band, aligned outward. -/
theorem isWidened_of_ofTicks (h : (ofTicks band amount config).result = .ok p) :
    0 < config.tickSpacing ∧ band.IsWidened p.ticks config.tickSpacing :=
  ⟨(isOver_of_ofTicks h).spacing_pos, (isOver_of_ofTicks h).widened⟩

theorem isEnclosing_of_isWidened (hw : band.IsWidened p.ticks spacing) (hs : 0 < spacing)
    (ha : band.lower.IsAtOrBelow a) (hb : band.upper.IsAtOrBelow b) :
    p.IsEnclosing a b band.upper spacing := by
  have hd := Tick.toInt_pos hs
  obtain ⟨hle, hlt⟩ := Tick.isAtOrBelow_iff.mp hb
  have heq : band.upper.isAligned spacing → p.ticks.upper = band.upper := fun haligned => by
    rw [← Int32.toInt_inj, hw.upper, multipleAbove_eq_self hd ((Tick.isAligned_iff hs).mp haligned)]
  constructor
  case lower_le =>
    refine le_trans (Tick.zpow_le_gridPrice ?_) (Tick.isAtOrBelow_iff.mp ha).1
    rw [hw.lower]
    exact multipleBelow_le hd
  case le_upper =>
    intro hfits
    by_cases haligned : band.upper.isAligned spacing
    · rw [heq haligned]
      exact le_of_not_gt fun hgt => hfits ⟨haligned, hgt⟩
    · refine hlt.le.trans (Tick.zpow_le_gridPrice ?_)
      rw [Tick.isAligned_iff hs] at haligned
      rw [hw.upper, multipleAbove_of_not_dvd hd haligned]
      exact lt_multipleBelow_add hd
  case upper_eq => exact heq
  case lt_next =>
    have hnext : band.upper.gridPrice ≤ p.ticks.upper.gridPrice :=
      Tick.zpow_le_gridPrice (hw.upper ▸ le_multipleAbove hd)
    calc b < (10001 / 10000) ^ (band.upper.toInt + 1) := hlt
      _ = 10001 / 10000 * band.upper.gridPrice := by
          rw [Tick.gridPrice, zpow_add_one₀ (by norm_num), mul_comm]
      _ ≤ 10001 / 10000 * p.ticks.upper.gridPrice := mul_le_mul_of_nonneg_left hnext (by norm_num)

/-- A plan over a band of prices contains the lower price, and the upper one unless it is above the
price of an aligned tick by less than one tick: there the plan ends at that tick. -/
theorem ofPricesBy_isEnclosing (ln : Float → Float) (lower upper : Float) (amount : Amount)
    (config : Config) (p : Plan) (hlower : Price.IsExactAt ln lower)
    (hupper : Price.IsExactAt ln upper)
    (h : (ofPricesBy ln lower upper amount config).result = .ok p) :
    ∃ a b t, Double.value? lower = some a ∧ Double.value? upper = some b ∧
      Price.toTickBy ln upper = .ok t ∧ p.IsEnclosing a b t config.tickSpacing := by
  obtain ⟨band, hlow, hup, hp⟩ := ofPricesBy_eq_ok h
  obtain ⟨a, ha⟩ := Price.exists_value_of_toTickBy hlow
  obtain ⟨b, hb⟩ := Price.exists_value_of_toTickBy hup
  obtain ⟨hs, hw⟩ := isWidened_of_ofTicks hp
  exact ⟨a, b, band.upper, ha, hb, hup,
    isEnclosing_of_isWidened hw hs (hlower _ _ hlow ha) (hupper _ _ hup hb)⟩

/-- From 1023 / 1024 to 1025 / 1024, the tick of neither of which is aligned. -/
theorem ofPricesBy_isEnclosing_around_one :
    Price.IsExactAt Double.ln 0.9990234375 ∧ Price.IsExactAt Double.ln 1.0009765625 ∧
      (ofPricesBy Double.ln 0.9990234375 1.0009765625 1000000 Config.default).result =
        .ok ⟨⟨-30, 30⟩, ⟨0xff9dc64c18f52ee954523a44, 0x100625f729d4d130a9aec310f⟩, 1000000,
          0x13de83f2⟩ ∧
      Double.value? 0.9990234375 = some (1023 / 1024) ∧
      Double.value? 1.0009765625 = some (1025 / 1024) ∧
      Price.toTickBy Double.ln 1.0009765625 = .ok 9 ∧
      IsEnclosing ⟨⟨-30, 30⟩, ⟨0xff9dc64c18f52ee954523a44, 0x100625f729d4d130a9aec310f⟩, 1000000,
        0x13de83f2⟩ (1023 / 1024) (1025 / 1024) 9 30 := by
  have hlower := Price.isExactAt_below_one
  have hupper : Price.IsExactAt Double.ln 1.0009765625 :=
    Price.isExactAt_of (t := 9) (x := 1025 / 1024) (by decide +kernel) (by decide +kernel)
      (by decide +kernel)
  have hticks : ticksOfPricesBy Double.ln 0.9990234375 1.0009765625 = .ok ⟨-10, 9⟩ := by
    decide +kernel
  have hplan : (ofTicks ⟨-10, 9⟩ 1000000 Config.default).result = .ok ⟨⟨-30, 30⟩,
    ⟨0xff9dc64c18f52ee954523a44, 0x100625f729d4d130a9aec310f⟩, 1000000, 0x13de83f2⟩ := rfl
  have hprices := ofPricesBy_of_ticks hticks hplan
  obtain ⟨a, b, t, ha, hb, ht, henclosing⟩ :=
    ofPricesBy_isEnclosing _ _ _ _ _ _ hlower hupper hprices
  obtain rfl : a = 1023 / 1024 := Option.some.inj (ha.symm.trans (by decide +kernel))
  obtain rfl : b = 1025 / 1024 := Option.some.inj (hb.symm.trans (by decide +kernel))
  obtain rfl : t = 9 := eq_of_eq_ok ht (by decide +kernel)
  exact ⟨hlower, hupper, hprices, ha, hb, ht, henclosing⟩

/-- From 1023 / 1024 to 16385 / 16384, the tick of which is 0: the plan ends at the price one. -/
theorem ofPrices_below_upper :
    (0.9990234375 : Float) < 1.00006103515625 ∧
      Price.IsExactAt Double.ln 0.9990234375 ∧ Price.IsExactAt Double.ln 1.00006103515625 ∧
      (ofPrices 0.9990234375 1.00006103515625 1000000000000000000 Config.default).result =
        .ok ⟨⟨-30, 0⟩, ⟨0xff9dc64c18f52ee954523a44, 0x1000000000000000000000000⟩,
          1000000000000000000, 0x242b430232e467045d⟩ ∧
      Double.value? 1.00006103515625 = some (16385 / 16384) ∧
      Tick.gridPrice 0 < 16385 / 16384 := by
  have hlower := Price.isExactAt_below_one
  have hupper : Price.IsExactAt Double.ln 1.00006103515625 :=
    Price.isExactAt_of (t := 0) (x := 16385 / 16384) (by decide +kernel) (by decide +kernel)
      (by decide +kernel)
  have hticks : ticksOfPricesBy Double.ln 0.9990234375 1.00006103515625 = .ok ⟨-10, 0⟩ := by
    decide +kernel
  have hplan : (ofTicks ⟨-10, 0⟩ 1000000000000000000 Config.default).result = .ok ⟨⟨-30, 0⟩,
    ⟨0xff9dc64c18f52ee954523a44, 0x1000000000000000000000000⟩, 1000000000000000000,
      0x242b430232e467045d⟩ := rfl
  exact ⟨by decide +kernel, hlower, hupper, ofPricesBy_of_ticks hticks hplan,
    by decide +kernel, by decide +kernel⟩

end

end Plan

end LiquidityBand
