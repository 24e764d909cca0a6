import LiquidityBand.Proofs.Amount.Rescale
import LiquidityBand.Proofs.Plan.Reports
import LiquidityBand.Proofs.Plan.Verdict

/-!
# Plans over the default band

The default range of usable parameters is aligned and lies on the grid, so planning over it neither
widens it nor refuses its ticks: what is left to refuse is the liquidity of the deposit. A margin is
first counted at the precision of the deposit, rounded down. What the liquidity needs is covered by
that deposit, and hence by the margin, also when it is counted as margin again.

* `Plan.ofTicks_of_isAligned` is planning over an aligned band, with its single report;
* `Plan.ofMargin_result` and `Plan.exists_deposit_of_ofMargin` reduce a margin to its deposit;
* `Plan.exists_isPlannable` says what planning over the default band can give;
* `Plan.ofMargin_within_margin` says that a plan never needs more than its margin.
-/

namespace LiquidityBand

namespace Plan

section
variable {band : TickBand} {amount margin : Amount} {config : Config} {p : Plan}

/-! ### Aligned bands -/

/-- A band of ascending aligned ticks is planned as it is, and the only report is the plan. -/
theorem ofTicks_of_isAligned (hv : config.validate = .ok ()) (hlt : band.lower < band.upper)
    (hlower : band.lower.isAligned config.tickSpacing)
    (hupper : band.upper.isAligned config.tickSpacing) (amount : Amount) :
    ofTicks band amount config =
      Logged.ofCore (ofAligned band amount) >>= fun p => ⟨[.planned p], .ok p⟩ := by
  have hs := Config.tickSpacing_pos hv
  have halign : band.align config.tickSpacing = .ok band :=
    TickBand.align_eq_ok_iff.mpr ⟨hs, TickBand.isWidened_self hs hlower hupper, hlt⟩
  rw [ofTicks_of_align hv (Int32.le_of_lt hlt) halign, widening_self]
  rfl

/-! ### The default band -/

theorem default_eq (h : config.IsUsable) (amount : Amount) : default amount config =
    Logged.ofCore (ofAligned config.defaultRange amount) >>= fun p => ⟨[.planned p], .ok p⟩ :=
  ofTicks_of_isAligned (Config.validate_eq_ok_iff.mpr h) h.ordered h.lower_aligned h.upper_aligned
    amount

theorem default_eq_ok (h : config.IsUsable) (hp : ofAligned config.defaultRange amount = .ok p) :
    default amount config = ⟨[.planned p], .ok p⟩ := by
  rw [default_eq h, hp]
  rfl

theorem default_eq_error (h : config.IsUsable) {cause : Error}
    (he : ofAligned config.defaultRange amount = .error cause) :
    default amount config = ⟨[], .error (.core cause)⟩ := by
  rw [default_eq h, he]
  rfl

/-- A plan over the default band holds the default ticks and the deposit. -/
theorem isOfAligned_of_default (h : (default amount config).result = .ok p) :
    config.IsUsable ∧ p.IsOfAligned config.defaultRange amount := by
  have hu := Config.validate_eq_ok_iff.mp (validate_of_ofTicks h)
  refine ⟨hu, isOfAligned ?_⟩
  rw [default_eq hu, Logged.result_bind, bind_eq_ok_iff] at h
  obtain ⟨q, hq, hqp⟩ := h
  obtain rfl := Except.ok.inj hqp
  exact mapError_eq_ok_iff.mp hq

/-- Only the liquidity of the deposit decides whether there is a plan over the default band. -/
theorem default_cases (h : config.IsUsable) {r : SqrtRange}
    (hl : config.defaultRange.lower.sqrtPrice = .ok r.lower)
    (hu : config.defaultRange.upper.sqrtPrice = .ok r.upper) (amount : Amount) :
    2 ^ 128 ≤ amount.toNat * 2 ^ 96 / r.span ∧
        default amount config = ⟨[], .error (.core .liquidityTooWide)⟩ ∨
      amount.toNat * 2 ^ 96 / r.span < 2 ^ 128 ∧
        ∃ p, p.ticks = config.defaultRange ∧ default amount config = ⟨[.planned p], .ok p⟩ := by
  rcases ofAligned_cases hl hu h.ordered amount with ⟨hn, he⟩ | ⟨hn, p, hp⟩
  · exact .inl ⟨hn, default_eq_error h he⟩
  · exact .inr ⟨hn, p, (isOfAligned hp).ticks_eq, default_eq_ok h hp⟩

/-! ### Margins -/

theorem ofMargin_result (margin : Amount) (config : Config) :
    (ofMargin margin config).result =
      (Amount.rescale margin config.marginDecimals config.depositDecimals).mapError
        PlanError.amount >>= fun amount => (default amount config).result :=
  exactSteps.ofMargin_result margin config

/-- A plan for a margin is one for the deposit that the margin is worth. -/
theorem exists_deposit_of_ofMargin (h : (ofMargin margin config).result = .ok p) :
    ∃ amount, Amount.rescale margin config.marginDecimals config.depositDecimals = .ok amount ∧
      (default amount config).result = .ok p := by
  rw [ofMargin_result, bind_eq_ok_iff] at h
  obtain ⟨amount, hamount, hp⟩ := h
  exact ⟨amount, mapError_eq_ok_iff.mp hamount, hp⟩

/-- A margin is refused for its size alone, and else planned as the deposit that it is worth. -/
theorem ofMargin_cases (h : config.IsUsable) (margin : Amount) :
    2 ^ 128 ≤ margin.toNat * 10 ^ (config.depositDecimals.toNat - config.marginDecimals.toNat) ∧
        (ofMargin margin config).result = .error (.amount (Amount.tooLarge margin)) ∨
      margin.toNat * 10 ^ (config.depositDecimals.toNat - config.marginDecimals.toNat) < 2 ^ 128 ∧
        ∃ amount : Amount, amount.toNat = margin.toNat * 10 ^ config.depositDecimals.toNat /
            10 ^ config.marginDecimals.toNat ∧
          (ofMargin margin config).result = (default amount config).result := by
  rw [ofMargin_result]
  cases hres : Amount.rescale margin config.marginDecimals config.depositDecimals with
  | error e =>
    rw [Amount.rescale_eq_error_iff h.deposit_le_add, Amount.two_pow_le_rescaled_iff] at hres
    obtain ⟨hwide, rfl⟩ := hres
    exact .inl ⟨hwide, rfl⟩
  | ok amount =>
    rw [Amount.rescale_eq_ok_iff h.deposit_le_add] at hres
    have hfit : ¬2 ^ 128 ≤ margin.toNat * 10 ^ config.depositDecimals.toNat /
        10 ^ config.marginDecimals.toNat := Nat.not_le.mpr (hres ▸ amount.isLt)
    rw [Amount.two_pow_le_rescaled_iff, Nat.not_le] at hfit
    exact .inr ⟨hfit, amount, hres, rfl⟩

/-! ### What the default band gives -/

/-- What planning over the default band of the parameters gives, whose prices are `r`. -/
structure IsPlannable (config : Config) (r : SqrtRange) : Prop where
  lower_price : config.defaultRange.lower.sqrtPrice = .ok r.lower
  upper_price : config.defaultRange.upper.sqrtPrice = .ok r.upper
  planned_or_tooWide : ∀ amount,
    (∃ p, (default amount config).result = .ok p ∧ p.ticks = config.defaultRange) ∨
      (default amount config).result = .error (.core .liquidityTooWide)
  tooWide_iff : ∀ amount, (default amount config).result = .error (.core .liquidityTooWide) ↔
    2 ^ 128 ≤ amount.toNat * 2 ^ 96 / r.span
  quiet : ∀ amount, ∀ e ∈ (default amount config).entries, e.level ≠ .warning
  margin_refusal : ∀ margin error, (ofMargin margin config).result = .error error →
    error = .core .liquidityTooWide ∨ error = .amount (Amount.tooLarge margin)
  margin_tooLarge_iff : ∀ margin,
    (ofMargin margin config).result = .error (.amount (Amount.tooLarge margin)) ↔
      2 ^ 128 ≤ margin.toNat * 10 ^ (config.depositDecimals.toNat - config.marginDecimals.toNat)

/-- With parameters that pass their checks, every deposit has a plan over the default band, which
is not widened, unless its liquidity is too wide. A margin may besides be too large for a deposit,
but never has too many decimals. -/
theorem exists_isPlannable (config : Config) (hv : config.validate = .ok ()) :
    ∃ r, IsPlannable config r := by
  have h := Config.validate_eq_ok_iff.mp hv
  obtain ⟨r, hl, hu⟩ := exists_sqrtRange h.lower_inBounds h.upper_inBounds
  have hcases := default_cases h hl hu
  refine ⟨r, ?_⟩
  constructor
  case lower_price => exact hl
  case upper_price => exact hu
  case planned_or_tooWide =>
    intro amount
    rcases hcases amount with ⟨-, he⟩ | ⟨-, p, hticks, hp⟩
    · exact .inr (congrArg Logged.result he)
    · exact .inl ⟨p, congrArg Logged.result hp, hticks⟩
  case tooWide_iff =>
    intro amount
    rcases hcases amount with ⟨hn, he⟩ | ⟨hn, p, -, hp⟩
    · simp [he, hn]
    · simp [hp, Nat.not_le.mpr hn]
  case quiet =>
    intro amount e hmem
    rcases hcases amount with ⟨-, he⟩ | ⟨-, p, -, hp⟩
    · simp [he] at hmem
    · rw [hp, List.mem_singleton] at hmem
      simp [hmem, Entry.level]
  case margin_refusal =>
    intro margin error herror
    rcases ofMargin_cases h margin with ⟨-, he⟩ | ⟨-, amount, -, heq⟩
    · exact .inr (Except.error.inj (herror.symm.trans he))
    · rcases hcases amount with ⟨-, he⟩ | ⟨-, p, -, hp⟩
      · rw [heq, he] at herror
        exact .inl (Except.error.inj herror).symm
      · rw [heq, hp] at herror
        cases herror
  case margin_tooLarge_iff =>
    intro margin
    rcases ofMargin_cases h margin with ⟨hwide, he⟩ | ⟨hfit, amount, -, heq⟩
    · simp [he, hwide]
    · -- what is then refused is the liquidity
      rcases hcases amount with ⟨-, he⟩ | ⟨-, p, -, hp⟩
      · simp [heq, he, Nat.not_le.mpr hfit]
      · simp [heq, hp, Nat.not_le.mpr hfit]

/-- With a spacing that does not divide the greatest tick, and as many decimals for the margin as
there can be. -/
theorem exists_isPlannable_at_ends :
    Config.validate ⟨7, 6, 38, ⟨-887271, 887271⟩⟩ = .ok () ∧
      IsPlannable ⟨7, 6, 38, ⟨-887271, 887271⟩⟩
        ⟨0x10005bd82, 0xfffa429fbf7baeed2496f0a9f5ccf2bb4abf52f9⟩ := by
  obtain ⟨⟨lower, upper⟩, h⟩ := exists_isPlannable ⟨7, 6, 38, ⟨-887271, 887271⟩⟩ rfl
  obtain rfl : lower = 0x10005bd82 :=
    eq_of_eq_ok h.lower_price (by decide +kernel)
  obtain rfl : upper = 0xfffa429fbf7baeed2496f0a9f5ccf2bb4abf52f9 :=
    eq_of_eq_ok h.upper_price (by decide +kernel)
  exact ⟨rfl, h⟩

/-! ### What a margin pays for -/

/-- The plan for a margin is made for all that the margin is worth, rounded down, and what its
liquidity needs is worth no more than the margin, exactly and counted as margin again. -/
theorem ofMargin_within_margin (margin : Amount) (config : Config) (p : Plan)
    (h : (ofMargin margin config).result = .ok p) :
    p.amount.toNat = margin.toNat * 10 ^ config.depositDecimals.toNat /
        10 ^ config.marginDecimals.toNat ∧
      ∃ needed, p.required = .ok needed ∧
        needed.toNat * 10 ^ config.marginDecimals.toNat ≤
          margin.toNat * 10 ^ config.depositDecimals.toNat ∧
        ∃ back, Amount.rescale needed config.depositDecimals config.marginDecimals = .ok back ∧
          back ≤ margin := by
  obtain ⟨amount, hrescale, hdefault⟩ := exists_deposit_of_ofMargin h
  obtain ⟨hu, hp⟩ := isOfAligned_of_default hdefault
  have hvalue := (Amount.rescale_eq_ok_iff hu.deposit_le_add).mp hrescale
  obtain ⟨needed, hneeded, hle⟩ := hp.exists_required hu.ordered
  have hworth : needed.toNat * 10 ^ config.marginDecimals.toNat ≤
      margin.toNat * 10 ^ config.depositDecimals.toNat :=
    calc needed.toNat * 10 ^ config.marginDecimals.toNat
        ≤ amount.toNat * 10 ^ config.marginDecimals.toNat :=
          Nat.mul_le_mul_right _ (BitVec.le_def.mp hle)
      _ = margin.toNat * 10 ^ config.depositDecimals.toNat / 10 ^ config.marginDecimals.toNat *
            10 ^ config.marginDecimals.toNat := by rw [hvalue]
      _ ≤ margin.toNat * 10 ^ config.depositDecimals.toNat := Nat.div_mul_le_self _ _
  refine ⟨?_, needed, hneeded, hworth, ?_⟩
  · rw [hp.amount_eq, hvalue]
  · exact Amount.exists_rescale_le hu.margin_le_add hworth

/-- A margin with two decimals more than the deposit, which loses its last two digits. -/
theorem ofMargin_within_margin_of_truncated :
    (ofMargin 1234567 ⟨30, 4, 6, ⟨-46080, 46050⟩⟩).result =
        .ok ⟨⟨-46080, 46050⟩, ⟨0x199116750065d5cc2587043c, 0x9ff7ccda4fe1e12ea19a9d958⟩, 12345,
          1247⟩ ∧
      (12345 : Amount).toNat = (1234567 : Amount).toNat * 10 ^ 4 / 10 ^ 6 ∧
      required ⟨⟨-46080, 46050⟩, ⟨0x199116750065d5cc2587043c, 0x9ff7ccda4fe1e12ea19a9d958⟩, 12345,
          1247⟩ = .ok 12343 ∧
        (12343 : Amount).toNat * 10 ^ 6 ≤ (1234567 : Amount).toNat * 10 ^ 4 ∧
        Amount.rescale 12343 4 6 = .ok 1234300 ∧ (1234300 : Amount) ≤ 1234567 := by
  obtain ⟨hamount, needed, hneeded, hworth, back, hback, hle⟩ :=
    ofMargin_within_margin 1234567 ⟨30, 4, 6, ⟨-46080, 46050⟩⟩ _ rfl
  obtain rfl : needed = 12343 := eq_of_eq_ok hneeded rfl
  obtain rfl : back = 1234300 := eq_of_eq_ok hback rfl
  exact ⟨rfl, hamount, hneeded, hworth, hback, hle⟩

end

end Plan

end LiquidityBand
