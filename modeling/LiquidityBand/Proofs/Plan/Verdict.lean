import LiquidityBand.Proofs.Config
import LiquidityBand.Proofs.Plan.Band

/-!
# Which bands have a plan

An empty band is refused before anything is computed from its ends, then an end that leaves its
register, then one that leaves the grid. Between two ticks of the grid the prices are a range that
a pool can store, so that after this only the liquidity of the deposit can be refused.

* `Plan.ofAligned_cases` are the outcomes between two ascending ticks of the grid;
* `Plan.ofBand_of_isEmptyAt`, `Plan.ofBand_of_not_fits`, `Plan.ofBand_of_not_isWithin` and
  `Plan.ofBand_of_isWithin` are the outcomes, in this order;
* `Plan.refusals` are the causes that planning can report, by `Plan.mem_refusals_of_ofTicks`;
* `Plan.IsVerdict` says which bands have a plan and why the others have none, and
  `Plan.ofTicks_verdict` that it is so.
-/

namespace LiquidityBand

/-- The prices are the exact ones of the aligned ends of the band. -/
def TickBand.IsPriced (band : TickBand) (spacing : Tick) (r : SqrtRange) : Prop :=
  band.lower.alignDown spacing >>= Tick.sqrtPrice = .ok r.lower ∧
    band.upper.alignUp spacing >>= Tick.sqrtPrice = .ok r.upper

namespace Plan

section
variable {ticks : TickBand}

theorem ofAligned_eq_outOfBounds (h : ¬(ticks.lower.inBounds ∧ ticks.upper.inBounds))
    (amount : Amount) : ofAligned ticks amount = .error .tickOutOfBounds := by
  rw [ofAligned, Steps.ofAligned, exactSteps_sqrtPrice]
  by_cases hlower : ticks.lower.inBounds
  · obtain ⟨s, -, hs, -⟩ := Tick.exists_sqrtPrice hlower
    rw [hs, ok_bind, Tick.sqrtPrice_eq_error fun hupper => h ⟨hlower, hupper⟩, error_bind]
  · rw [Tick.sqrtPrice_eq_error hlower, error_bind]

/-- Between two ascending ticks of the grid, only the liquidity can be too wide. -/
theorem ofAligned_cases {r : SqrtRange} (hl : ticks.lower.sqrtPrice = .ok r.lower)
    (hu : ticks.upper.sqrtPrice = .ok r.upper) (hlt : ticks.lower < ticks.upper)
    (amount : Amount) :
    2 ^ 128 ≤ amount.toNat * 2 ^ 96 / r.span ∧
        ofAligned ticks amount = .error .liquidityTooWide ∨
      amount.toNat * 2 ^ 96 / r.span < 2 ^ 128 ∧ ∃ p, ofAligned ticks amount = .ok p := by
  have hr : r.IsStored := isStored_of_sqrtPrice hl hu hlt
  rw [ofAligned, Steps.ofAligned, exactSteps_sqrtPrice, hl, ok_bind, hu, ok_bind,
    exactSteps_ofDeposit, Liquidity.ofDeposit_eq hr]
  rcases Nat.lt_or_ge (amount.toNat * 2 ^ 96 / r.span) (2 ^ 128) with hn | hn
  · rw [fit_eq_ok hn, ok_bind]
    exact .inr ⟨hn, _, rfl⟩
  · rw [fit_eq_error hn, error_bind]
    exact .inl ⟨hn, rfl⟩

end

section
variable {band full : TickBand} {spacing : Tick}

theorem ofBand_of_isEmptyAt (hs : 0 < spacing) (h : band.IsEmptyAt spacing) (amount : Amount) :
    ofBand band spacing amount = .error .emptyTickBand := by
  by_cases hlt : band.upper < band.lower
  · rw [ofBand_of_lt hlt]
  · obtain ⟨heq, haligned⟩ := h.resolve_left hlt
    have hw : band.IsWidened band spacing :=
      TickBand.isWidened_self hs haligned (heq ▸ haligned)
    rw [ofBand_of_le (Int32.not_lt.mp hlt), TickBand.align_of_isWidened hs hw,
      if_pos (heq ▸ Int32.le_refl _), error_bind]

theorem ofBand_of_not_fits (hs : 0 < spacing) (hne : ¬band.IsEmptyAt spacing)
    (hfits : ¬band.Fits spacing) (amount : Amount) :
    ofBand band spacing amount = .error .arithmeticOverflow := by
  rw [ofBand_of_le (Int32.not_lt.mp fun hlt => hne (.inl hlt)),
    TickBand.align_eq_overflow hs hfits, error_bind]

/-- A band that is not empty is widened, and the plan is over the widened band. -/
theorem exists_ofBand_eq (hs : 0 < spacing) (hne : ¬band.IsEmptyAt spacing)
    (hfits : band.Fits spacing) (amount : Amount) :
    ∃ ticks, band.IsWidened ticks spacing ∧ ticks.lower < ticks.upper ∧
      ofBand band spacing amount = ofAligned ticks amount := by
  obtain ⟨ticks, hw⟩ := TickBand.exists_isWidened hs hfits
  have hle : band.lower ≤ band.upper := Int32.not_lt.mp fun hlt => hne (.inl hlt)
  have hlt := (hw.lower_lt_upper_iff hs hle).mpr fun heq => hne (.inr heq)
  refine ⟨ticks, hw, hlt, ?_⟩
  rw [ofBand_of_le hle, TickBand.align_eq_ok_iff.mpr ⟨hs, hw, hlt⟩, ok_bind]

theorem ofBand_of_not_isWithin (hs : 0 < spacing) (hf : full.IsFull spacing)
    (hne : ¬band.IsEmptyAt spacing) (hfits : band.Fits spacing) (hout : ¬band.IsWithin full)
    (amount : Amount) : ofBand band spacing amount = .error .tickOutOfBounds := by
  obtain ⟨ticks, hw, hlt, heq⟩ := exists_ofBand_eq hs hne hfits amount
  rw [heq, ofAligned_eq_outOfBounds fun hin => hout ((hw.inBounds_iff hf hs hlt).mp hin)]

theorem isPriced_unique {r r' : SqrtRange} (h : band.IsPriced spacing r)
    (h' : band.IsPriced spacing r') : r = r' := by
  obtain ⟨lower, upper⟩ := r
  obtain ⟨lower', upper'⟩ := r'
  obtain rfl : lower = lower' := eq_of_eq_ok h.1 h'.1
  obtain rfl : upper = upper' := eq_of_eq_ok h.2 h'.2
  rfl

/-- A band inside the full one has its prices, and only the liquidity can be too wide. -/
theorem ofBand_of_isWithin (hs : 0 < spacing) (hf : full.IsFull spacing)
    (hne : ¬band.IsEmptyAt spacing) (hin : band.IsWithin full) (amount : Amount) :
    ∃ r, band.IsPriced spacing r ∧
      (2 ^ 128 ≤ amount.toNat * 2 ^ 96 / r.span ∧
          ofBand band spacing amount = .error .liquidityTooWide ∨
        amount.toNat * 2 ^ 96 / r.span < 2 ^ 128 ∧ ∃ p, ofBand band spacing amount = .ok p) := by
  obtain ⟨ticks, hw, hlt, heq⟩ := exists_ofBand_eq hs hne (hf.fits hs hin) amount
  obtain ⟨hlower, hupper⟩ := (hw.inBounds_iff hf hs hlt).mpr hin
  obtain ⟨r, hl, hu⟩ := exists_sqrtRange hlower hupper
  refine ⟨r, ⟨?_, ?_⟩, ?_⟩
  · rw [Tick.alignDown_eq hs, fitInt32_eq_ok_iff.mpr hw.lower, ok_bind, hl]
  · rw [Tick.alignUp_eq hs, fitInt32_eq_ok_iff.mpr hw.upper, ok_bind, hu]
  · rw [heq]
    exact ofAligned_cases hl hu hlt amount

/-- The causes for which a band has no plan. -/
def refusals : List Error :=
  [.emptyTickBand, .tickOutOfBounds, .arithmeticOverflow, .liquidityTooWide]

theorem mem_refusals_of_ofBand (hs : 0 < spacing) {amount : Amount} {cause : Error}
    (h : ofBand band spacing amount = .error cause) : cause ∈ refusals := by
  obtain ⟨full, -, hf⟩ := TickBand.exists_full hs
  by_cases hne : band.IsEmptyAt spacing
  · rw [ofBand_of_isEmptyAt hs hne, Except.error.injEq] at h
    simp [refusals, ← h]
  by_cases hfits : band.Fits spacing
  swap
  · rw [ofBand_of_not_fits hs hne hfits, Except.error.injEq] at h
    simp [refusals, ← h]
  by_cases hin : band.IsWithin full
  swap
  · rw [ofBand_of_not_isWithin hs hf hne hfits hin, Except.error.injEq] at h
    simp [refusals, ← h]
  obtain ⟨r, -, ⟨-, heq⟩ | ⟨-, p, heq⟩⟩ := ofBand_of_isWithin hs hf hne hin amount
  · rw [heq, Except.error.injEq] at h
    simp [refusals, ← h]
  · rw [heq] at h
    cases h

theorem mem_refusals_of_ofTicks {amount : Amount} {config : Config} {cause : Error}
    (h : (ofTicks band amount config).result = .error (.core cause)) : cause ∈ refusals := by
  cases hv : config.validate with
  | error problem =>
    rw [ofTicks_result_of_error hv] at h
    cases h
  | ok u =>
    rw [ofTicks_result_of_ok hv] at h
    obtain ⟨e, he, heq⟩ := mapError_eq_error_iff.mp h
    obtain rfl := PlanError.core.inj heq
    exact mem_refusals_of_ofBand (Config.tickSpacing_pos hv) he

/-- What planning over a band gives, by its place in the full band. -/
structure IsVerdict (band full : TickBand) (spacing : Tick) (amount : Amount)
    (result : Except PlanError Plan) : Prop where
  planned_iff : (∃ p, result = .ok p) ↔ ¬band.IsEmptyAt spacing ∧ band.IsWithin full ∧
    ∃ r, band.IsPriced spacing r ∧ amount.toNat * 2 ^ 96 / r.span < 2 ^ 128
  priced : ¬band.IsEmptyAt spacing → band.IsWithin full → ∃ r, band.IsPriced spacing r
  empty : band.IsEmptyAt spacing → result = .error (.core .emptyTickBand)
  overflow_iff : ¬band.IsEmptyAt spacing →
    (result = .error (.core .arithmeticOverflow) ↔ ¬band.Fits spacing)
  outOfBounds_iff : ¬band.IsEmptyAt spacing →
    (result = .error (.core .tickOutOfBounds) ↔ band.Fits spacing ∧ ¬band.IsWithin full)
  tooWide_iff : ¬band.IsEmptyAt spacing → band.IsWithin full →
    (result = .error (.core .liquidityTooWide) ↔ ¬∃ p, result = .ok p)

theorem isVerdict (hs : 0 < spacing) (hf : full.IsFull spacing) (amount : Amount) :
    IsVerdict band full spacing amount (PlanError.ofCore (ofBand band spacing amount)) := by
  by_cases hne : band.IsEmptyAt spacing
  · rw [ofBand_of_isEmptyAt hs hne]
    constructor <;> simp [hne]
  by_cases hfits : band.Fits spacing
  swap
  · have hout : ¬band.IsWithin full := fun hin => hfits (hf.fits hs hin)
    rw [ofBand_of_not_fits hs hne hfits]
    constructor <;> simp [hne, hfits, hout]
  by_cases hin : band.IsWithin full
  swap
  · rw [ofBand_of_not_isWithin hs hf hne hfits hin]
    constructor <;> simp [hne, hfits, hin]
  obtain ⟨r, hr, hcases⟩ := ofBand_of_isWithin hs hf hne hin amount
  -- the band has one pair of prices, so what holds of some pair holds of this one
  have hprices : (∃ r, band.IsPriced spacing r ∧ amount.toNat * 2 ^ 96 / r.span < 2 ^ 128) ↔
      amount.toNat * 2 ^ 96 / r.span < 2 ^ 128 := by
    constructor
    · rintro ⟨r', hr', hlt⟩
      exact isPriced_unique hr' hr ▸ hlt
    · intro hlt
      exact ⟨r, hr, hlt⟩
  obtain ⟨hn, heq⟩ | ⟨hn, p, heq⟩ := hcases
  · rw [heq]
    constructor
    case planned_iff =>
      rw [hprices]
      constructor
      · rintro ⟨p, hp⟩
        cases hp
      · rintro ⟨-, -, hlt⟩
        exact absurd hlt (Nat.not_lt.mpr hn)
    case priced => exact fun _ _ => ⟨r, hr⟩
    all_goals simp [hne, hfits, hin]
  · rw [heq]
    constructor
    case planned_iff =>
      rw [hprices]
      exact ⟨fun _ => ⟨hne, hin, hn⟩, fun _ => ⟨p, rfl⟩⟩
    case priced => exact fun _ _ => ⟨r, hr⟩
    all_goals simp [hne, hfits, hin]

end

/-- With unusable parameters there is no plan. With usable ones, a band has a plan if and only if
it is not empty, lies inside the full band and its deposit gives a liquidity that fits; the first of
these to fail is the reason why there is none, and there is no other. -/
theorem ofTicks_verdict (band : TickBand) (amount : Amount) (config : Config) :
    (∀ problem, config.validate = .error problem →
      (ofTicks band amount config).result = .error (.config problem)) ∧
    (config.validate = .ok () → ∃ full, TickBand.full config.tickSpacing = .ok full ∧
      IsVerdict band full config.tickSpacing amount (ofTicks band amount config).result) ∧
    (∀ cause, (ofTicks band amount config).result = .error (.core cause) →
      cause ∈ refusals) ∧
    (PlanError.core .emptyTickBand).kind = some .invalidRange := by
  refine ⟨?_, ?_, ?_, rfl⟩
  · intro problem hv
    exact ofTicks_result_of_error hv band amount
  · intro hv
    have hs := Config.tickSpacing_pos hv
    obtain ⟨full, hfull, hf⟩ := TickBand.exists_full hs
    refine ⟨full, hfull, ?_⟩
    rw [ofTicks_result_of_ok hv]
    exact isVerdict hs hf amount
  · intro cause hcause
    exact mem_refusals_of_ofTicks hcause

end Plan

end LiquidityBand
