import LiquidityBand.Proofs.Liquidity.Deposit

/-!
# Deposits there and back

A deposit is turned into liquidity by a floor and back by a ceiling, and the scale between the two
is `2 ^ 96` over the width of the range. If the range is no wider than `2 ^ 96`, liquidities are at
least as fine as deposits: a deposit comes back whole, and a greater one gives more liquidity. If it
is no narrower, deposits are at least as fine: a liquidity comes back whole. In general what a
deposit loses is less than the width over `2 ^ 96`.

* `Liquidity.exists_required_of_ofDeposit` bounds what a deposit loses;
* `Liquidity.exists_ofDeposit_lt` compares the liquidity of two deposits;
* `Liquidity.ofDeposit_of_required` turns a liquidity into a deposit and back;
* `Liquidity.deposit_round_trip` is the whole.
-/

namespace LiquidityBand.Liquidity

section
variable {r : SqrtRange} {a b : Amount} {l d : Liquidity}

/-- The floor takes off less than one liquidity. -/
theorem mul_lt_of_ofDeposit (h : r.IsStored) (hd : ofDeposit a r = .ok d) :
    a.toNat * 2 ^ 96 < (d.toNat + 1) * r.span := by
  rw [(ofAmount1_eq_ok_iff h).mp hd, found1, Nat.mul_comm _ r.span]
  exact Nat.lt_mul_div_succ _ h.span_pos

/-- The ceiling adds less than one unit of the token. -/
theorem mul_lt_of_required (h : r.IsStored) (ha : required l r = .ok a) :
    a.toNat * 2 ^ 96 < l.toNat * r.span + 2 ^ 96 := by
  rw [required, amount1_eq_ok_iff h] at ha
  rw [ha]
  exact roundedDiv_true_mul_lt (by positivity)

theorem mul_le_of_required (h : r.IsStored) (ha : required l r = .ok a) :
    l.toNat * r.span ≤ a.toNat * 2 ^ 96 :=
  (required_le_iff h).mp ⟨a, ha, BitVec.le_refl a⟩

/-- What comes back of a deposit is no more than it, and what is lost is less than the width of the
range, as a fixed-point number. -/
theorem exists_required_of_ofDeposit (h : r.IsStored) (hd : ofDeposit a r = .ok d) :
    ∃ b, required d r = .ok b ∧ b ≤ a ∧ 2 ^ 96 * (a.toNat - b.toNat) < r.span := by
  obtain ⟨b, hb, hle⟩ := (le_ofDeposit_iff h hd).mp (BitVec.le_refl d)
  refine ⟨b, hb, hle, ?_⟩
  have hspan := h.span_pos
  have hfloor := mul_lt_of_ofDeposit h hd
  have hceil := mul_le_of_required h hb
  rw [Nat.add_mul, Nat.one_mul] at hfloor
  omega

/-- Over a range no wider than `2 ^ 96`, one more unit of the token gives one more liquidity. -/
theorem exists_ofDeposit_lt (h : r.IsStored) (hw : r.span ≤ 2 ^ 96) (hab : a < b)
    (hd : ofDeposit b r = .ok d) : ∃ c, ofDeposit a r = .ok c ∧ c < d := by
  have hab' := BitVec.lt_def.mp hab
  have hmul : (found1 r a + 1) * r.span ≤ b.toNat * 2 ^ 96 :=
    calc (found1 r a + 1) * r.span = found1 r a * r.span + r.span := Nat.succ_mul _ _
      _ ≤ a.toNat * 2 ^ 96 + 2 ^ 96 := Nat.add_le_add (Nat.div_mul_le_self _ _) hw
      _ = (a.toNat + 1) * 2 ^ 96 := (Nat.succ_mul _ _).symm
      _ ≤ b.toNat * 2 ^ 96 := Nat.mul_le_mul_right _ hab'
  have hlt : found1 r a < d.toNat := by
    rw [(ofAmount1_eq_ok_iff h).mp hd]
    exact (le_found1_iff h).mpr hmul
  have hfit := hlt.trans d.isLt
  refine ⟨BitVec.ofNat 128 (found1 r a), (ofAmount1_eq_ok_iff h).mpr (toNat_ofNat_of_lt hfit), ?_⟩
  rw [BitVec.lt_def, toNat_ofNat_of_lt hfit]
  exact hlt

/-- Over a range no narrower than `2 ^ 96`, the ceiling adds too little for one more liquidity. -/
theorem ofDeposit_of_required (h : r.IsStored) (hw : 2 ^ 96 ≤ r.span)
    (ha : required l r = .ok a) : ofDeposit a r = .ok l := by
  have hceil := mul_lt_of_required h ha
  refine (ofAmount1_eq_ok_iff h).mpr (Nat.div_eq_of_lt_le (mul_le_of_required h ha) ?_).symm
  rw [Nat.succ_mul]
  omega

end

/-- A deposit turned into liquidity and back loses less than the width of the range over `2 ^ 96`,
and so nothing where the range is no wider than that; there a greater deposit gives more liquidity.
A liquidity turned into a deposit and back loses nothing where the range is no narrower. -/
theorem deposit_round_trip (r : SqrtRange) (hpos : 0 < r.lower) (hlt : r.lower < r.upper)
    (hmax : r.upper ≤ maxStoredSqrtPrice) :
    (∀ a d, ofDeposit a r = .ok d → ∃ b, required d r = .ok b ∧ b ≤ a ∧
      2 ^ 96 * (a.toNat - b.toNat) < r.span ∧ (r.span ≤ 2 ^ 96 → b = a)) ∧
    (r.span ≤ 2 ^ 96 → ∀ a b d, a < b → ofDeposit b r = .ok d →
      ∃ c, ofDeposit a r = .ok c ∧ c < d) ∧
    (2 ^ 96 ≤ r.span → ∀ l a, required l r = .ok a → ofDeposit a r = .ok l) := by
  have h : r.IsStored := SqrtRange.isStored_iff.mpr ⟨hpos, hlt, hmax⟩
  refine ⟨?_, ?_, ?_⟩
  · intro a d hd
    obtain ⟨b, hb, hle, hloss⟩ := exists_required_of_ofDeposit h hd
    refine ⟨b, hb, hle, hloss, fun hw => BitVec.toNat_inj.mp ?_⟩
    have hle' := BitVec.le_def.mp hle
    omega
  · intro hw a b d hab hd
    exact exists_ofDeposit_lt h hw hab hd
  · intro hw l a ha
    exact ofDeposit_of_required h hw ha

/-- From the price 1 to the price 4 the width is just `2 ^ 96`, and nothing is lost either way. -/
theorem deposit_round_trip_at_one_width :
    (0 : SqrtPrice) < 0x1000000000000000000000000 ∧
    (0x1000000000000000000000000 : SqrtPrice) < 0x2000000000000000000000000 ∧
    0x2000000000000000000000000 ≤ maxStoredSqrtPrice ∧
    SqrtRange.span ⟨0x1000000000000000000000000, 0x2000000000000000000000000⟩ = 2 ^ 96 ∧
    required 1000001 ⟨0x1000000000000000000000000, 0x2000000000000000000000000⟩ = .ok 1000001 ∧
    2 ^ 96 * (1000001 - (1000001 : Amount).toNat) <
      SqrtRange.span ⟨0x1000000000000000000000000, 0x2000000000000000000000000⟩ ∧
    ofDeposit 1000000 ⟨0x1000000000000000000000000, 0x2000000000000000000000000⟩ = .ok 1000000 ∧
    (1000000 : Liquidity) < 1000001 ∧
    ofDeposit 1000001 ⟨0x1000000000000000000000000, 0x2000000000000000000000000⟩ =
      .ok 1000001 := by
  have hd : ofDeposit 1000001 ⟨0x1000000000000000000000000, 0x2000000000000000000000000⟩ =
      .ok 1000001 := by decide +kernel
  obtain ⟨hloss, hstrict, hback⟩ :=
    deposit_round_trip ⟨0x1000000000000000000000000, 0x2000000000000000000000000⟩
      (by decide) (by decide) (by decide)
  obtain ⟨b, hb, -, hlost, hexact⟩ := hloss _ _ hd
  obtain rfl := hexact (by decide)
  obtain ⟨c, hc, hlt⟩ := hstrict (by decide) 1000000 _ _ (by decide) hd
  obtain rfl : c = 1000000 := eq_of_eq_ok hc (by decide +kernel)
  exact ⟨by decide, by decide, by decide, by decide, hb, hlost, hc, hlt,
    hback (by decide) _ _ (by decide +kernel)⟩

/-- If the range is wider by the least step, a deposit of one unit is lost. -/
example : ofDeposit 1 ⟨0x1000000000000000000000000, 0x2000000000000000000000001⟩ = .ok 0 := by
  decide +kernel

end LiquidityBand.Liquidity
