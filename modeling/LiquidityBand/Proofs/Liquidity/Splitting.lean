import LiquidityBand.Proofs.Liquidity.TwoSided

/-!
# A whole and its parts

Each formula of one token multiplies what goes in by a fixed number, divides and rounds once. So
what goes in can be split in two, and the two results add up to the result of the whole but for one
unit, which is never gained. The exact amounts over the two parts of a range that is split at a
price add up as well, and with them the rounded ones.

* `IsSplit` compares a whole with its two parts, and `isSplit_roundedDiv` finds that two quotients
  of one divisor are such parts;
* `Stores.exists_parts` carries this to formulas that may refuse their result;
* `Liquidity.amounts_split_at` splits a range, and `Liquidity.splitting_gains_nothing` an amount or
  a liquidity.
-/

namespace LiquidityBand

/-- Rounded up, the two parts come to no less than the whole and exceed it by at most one unit.
Rounded down, they come to no more than the whole and fall short of it by at most one unit. -/
def IsSplit : Bool → ℕ → ℕ → ℕ → Prop
  | true, whole, first, second => whole ≤ first + second ∧ first + second ≤ whole + 1
  | false, whole, first, second => first + second ≤ whole ∧ whole ≤ first + second + 1

/-- The result is the number `n`, and it is there exactly if 128 bits hold that. -/
def Stores (x : Except Error UInt128) (n : ℕ) : Prop := ∀ s, x = .ok s ↔ s.toNat = n

section
variable {n m d : ℕ} {up : Bool}

theorem isSplit_roundedDiv (hd : 0 < d) (n m : ℕ) (up : Bool) :
    IsSplit up (roundedDiv up (n + m) d) (roundedDiv up n d) (roundedDiv up m d) := by
  cases up with
  | false =>
    change n / d + m / d ≤ (n + m) / d ∧ (n + m) / d ≤ n / d + m / d + 1
    rw [Nat.add_div hd]
    -- the remainders of the parts make up one more divisor, or they do not
    split_ifs <;> omega
  | true =>
    have hn : n ≤ roundedDiv true n d * d := (roundedDiv_true_le_iff hd).mp le_rfl
    have hm : m ≤ roundedDiv true m d * d := (roundedDiv_true_le_iff hd).mp le_rfl
    have hsum : n + m ≤ roundedDiv true (n + m) d * d := (roundedDiv_true_le_iff hd).mp le_rfl
    constructor
    · rw [roundedDiv_true_le_iff hd, Nat.add_mul]
      exact Nat.add_le_add hn hm
    · rw [← Nat.lt_succ_iff]
      refine Nat.lt_of_mul_lt_mul_right (a := d) ?_
      calc (roundedDiv true n d + roundedDiv true m d) * d
          = roundedDiv true n d * d + roundedDiv true m d * d := Nat.add_mul _ _ _
        _ < n + d + (m + d) :=
            Nat.add_lt_add (roundedDiv_true_mul_lt hd) (roundedDiv_true_mul_lt hd)
        _ ≤ roundedDiv true (n + m) d * d + 2 * d := by omega
        _ = (roundedDiv true (n + m) d + 1).succ * d := by rw [← Nat.add_mul]

theorem roundedDiv_le_roundedDiv_add (hd : 0 < d) (n m : ℕ) (up : Bool) :
    roundedDiv up n d ≤ roundedDiv up (n + m) d :=
  roundedDiv_le_roundedDiv hd hd (Nat.mul_le_mul_right _ (Nat.le_add_right _ _)) up

theorem Stores.exists_ok {x : Except Error UInt128} (h : Stores x n) (hn : n < 2 ^ 128) :
    ∃ s, x = .ok s ∧ s.toNat = n :=
  ⟨BitVec.ofNat 128 n, (h _).mpr (toNat_ofNat_of_lt hn), toNat_ofNat_of_lt hn⟩

/-- Where the quotient of a sum is stored, so are the quotients of its two terms. -/
theorem Stores.exists_parts {whole first second : Except Error UInt128} {s : UInt128}
    (hd : 0 < d) (hwhole : Stores whole (roundedDiv up (n + m) d))
    (hfirst : Stores first (roundedDiv up n d)) (hsecond : Stores second (roundedDiv up m d))
    (hs : whole = .ok s) :
    ∃ x y, first = .ok x ∧ second = .ok y ∧ IsSplit up s.toNat x.toNat y.toNat := by
  have hsum := (hwhole s).mp hs
  have hfit : roundedDiv up (n + m) d < 2 ^ 128 := hsum ▸ s.isLt
  have hn := roundedDiv_le_roundedDiv_add hd n m up
  have hm := roundedDiv_le_roundedDiv_add hd m n up
  rw [Nat.add_comm] at hm
  obtain ⟨x, hx, hxn⟩ := hfirst.exists_ok (hn.trans_lt hfit)
  obtain ⟨y, hy, hym⟩ := hsecond.exists_ok (hm.trans_lt hfit)
  refine ⟨x, y, hx, hy, ?_⟩
  rw [hsum, hxn, hym]
  exact isSplit_roundedDiv hd n m up

end

/-! ### A range in two parts -/

namespace SqrtRange

section
variable {r : SqrtRange} {mid : SqrtPrice}

theorem span_split (hl : r.lower < mid) (hu : mid < r.upper) :
    r.span = span ⟨r.lower, mid⟩ + span ⟨mid, r.upper⟩ := by
  have hl' := BitVec.lt_def.mp hl
  have hu' := BitVec.lt_def.mp hu
  dsimp only [span]
  omega

/-- Of token 0, the shares of the two parts over a common denominator. -/
theorem span_mul_split (hl : r.lower < mid) (hu : mid < r.upper) (n : ℕ) :
    n * r.span * mid.toNat = n * span ⟨r.lower, mid⟩ * r.upper.toNat +
      n * span ⟨mid, r.upper⟩ * r.lower.toNat := by
  obtain ⟨p, hp⟩ := Nat.exists_eq_add_of_lt (BitVec.lt_def.mp hl)
  obtain ⟨q, hq⟩ := Nat.exists_eq_add_of_lt (BitVec.lt_def.mp hu)
  have hlower : span ⟨r.lower, mid⟩ = p + 1 := by dsimp only [span]; omega
  have hupper : span ⟨mid, r.upper⟩ = q + 1 := by dsimp only [span]; omega
  rw [span_split hl hu, hlower, hupper, hq, hp]
  ring

end

end SqrtRange

namespace Liquidity

section
variable {r : SqrtRange} {mid : SqrtPrice} {l : Liquidity} {up : Bool} {a : Amount}

theorem stores_amount0 (h : r.IsStored) (l : Liquidity) (up : Bool) : Stores (amount0 r l up)
    (roundedDiv up (l.toNat * 2 ^ 96 * r.span) (r.upper.toNat * r.lower.toNat)) :=
  fun _ => amount0_eq_ok_iff h

theorem stores_amount1 (h : r.IsStored) (l : Liquidity) (up : Bool) :
    Stores (amount1 r l up) (roundedDiv up (l.toNat * r.span) (2 ^ 96)) :=
  fun _ => amount1_eq_ok_iff h

theorem amount0_split_at (h : r.IsStored) (hl : r.lower < mid) (hu : mid < r.upper)
    (ha : amount0 r l up = .ok a) :
    ∃ x y, amount0 ⟨r.lower, mid⟩ l up = .ok x ∧ amount0 ⟨mid, r.upper⟩ l up = .ok y ∧
      IsSplit up a.toNat x.toNat y.toNat := by
  have hlower := h.pos
  have hupper : 0 < r.upper.toNat := h.pos.trans h.lt
  have hmid : 0 < mid.toNat := hlower.trans (BitVec.lt_def.mp hl)
  have hwhole := stores_amount0 h l up
  have hfirst := stores_amount0 (h.below hl hu) l up
  have hsecond := stores_amount0 (h.above hl hu) l up
  dsimp only at hfirst hsecond
  -- each quotient is brought to the product of the three prices, where the numerators add up
  have hlowerPart : mid.toNat * r.lower.toNat * r.upper.toNat =
      r.upper.toNat * r.lower.toNat * mid.toNat := by ring
  have hupperPart : r.upper.toNat * mid.toNat * r.lower.toNat =
      r.upper.toNat * r.lower.toNat * mid.toNat := Nat.mul_right_comm _ _ _
  rw [← roundedDiv_mul_right (Nat.mul_pos hupper hlower) hmid,
    SqrtRange.span_mul_split hl hu] at hwhole
  rw [← roundedDiv_mul_right (Nat.mul_pos hmid hlower) hupper, hlowerPart] at hfirst
  rw [← roundedDiv_mul_right (Nat.mul_pos hupper hmid) hlower, hupperPart] at hsecond
  exact hwhole.exists_parts (Nat.mul_pos (Nat.mul_pos hupper hlower) hmid) hfirst hsecond ha

theorem amount1_split_at (h : r.IsStored) (hl : r.lower < mid) (hu : mid < r.upper)
    (ha : amount1 r l up = .ok a) :
    ∃ x y, amount1 ⟨r.lower, mid⟩ l up = .ok x ∧ amount1 ⟨mid, r.upper⟩ l up = .ok y ∧
      IsSplit up a.toNat x.toNat y.toNat := by
  have hwhole := stores_amount1 h l up
  rw [SqrtRange.span_split hl hu, Nat.mul_add] at hwhole
  exact hwhole.exists_parts (by positivity) (stores_amount1 (h.below hl hu) l up)
    (stores_amount1 (h.above hl hu) l up) ha

end

/-- If a liquidity has an amount over a range, it has one over each part of the range, and the two
come to the amount over the whole but for one unit of rounding. -/
theorem amounts_split_at (r : SqrtRange) (mid : SqrtPrice) (l : Liquidity) (up : Bool)
    (hpos : 0 < r.lower) (hl : r.lower < mid) (hu : mid < r.upper)
    (hmax : r.upper ≤ maxStoredSqrtPrice) :
    (∀ a, amount0 r l up = .ok a → ∃ x y, amount0 ⟨r.lower, mid⟩ l up = .ok x ∧
      amount0 ⟨mid, r.upper⟩ l up = .ok y ∧ IsSplit up a.toNat x.toNat y.toNat) ∧
    ∀ a, amount1 r l up = .ok a → ∃ x y, amount1 ⟨r.lower, mid⟩ l up = .ok x ∧
      amount1 ⟨mid, r.upper⟩ l up = .ok y ∧ IsSplit up a.toNat x.toNat y.toNat := by
  have h : r.IsStored := SqrtRange.isStored_iff.mpr ⟨hpos, BitVec.lt_trans hl hu, hmax⟩
  exact ⟨fun a ha => amount0_split_at h hl hu ha, fun a ha => amount1_split_at h hl hu ha⟩

/-- Between the ticks -1 and 1, split at the price 1: in two parts, the liquidity costs one unit
more of either token. -/
theorem amounts_split_at_one :
    (0 : SqrtPrice) < 0xfffcb933bd6fad37aa2d162e ∧
    (0xfffcb933bd6fad37aa2d162e : SqrtPrice) < 0x1000000000000000000000000 ∧
    (0x1000000000000000000000000 : SqrtPrice) < 0x1000346d6ff11672ae55ad010 ∧
    0x1000346d6ff11672ae55ad010 ≤ maxStoredSqrtPrice ∧
    amount0 ⟨0xfffcb933bd6fad37aa2d162e, 0x1000346d6ff11672ae55ad010⟩ 20001499988 true =
      .ok 2000050 ∧
    amount1 ⟨0xfffcb933bd6fad37aa2d162e, 0x1000346d6ff11672ae55ad010⟩ 20001499988 true =
      .ok 2000050 ∧
    amount0 ⟨0xfffcb933bd6fad37aa2d162e, 0x1000000000000000000000000⟩ 20001499988 true =
      .ok 1000050 ∧
    amount0 ⟨0x1000000000000000000000000, 0x1000346d6ff11672ae55ad010⟩ 20001499988 true =
      .ok 1000001 ∧
    IsSplit true 2000050 1000050 1000001 ∧
    amount1 ⟨0xfffcb933bd6fad37aa2d162e, 0x1000000000000000000000000⟩ 20001499988 true =
      .ok 1000001 ∧
    amount1 ⟨0x1000000000000000000000000, 0x1000346d6ff11672ae55ad010⟩ 20001499988 true =
      .ok 1000050 ∧
    IsSplit true 2000050 1000001 1000050 := by
  have hwhole : SqrtRange.IsStored ⟨0xfffcb933bd6fad37aa2d162e, 0x1000346d6ff11672ae55ad010⟩ :=
    SqrtRange.isStored_iff.mpr ⟨by decide, by decide, by decide⟩
  have hbelow : SqrtRange.IsStored ⟨0xfffcb933bd6fad37aa2d162e, 0x1000000000000000000000000⟩ :=
    SqrtRange.isStored_iff.mpr ⟨by decide, by decide, by decide⟩
  have habove : SqrtRange.IsStored ⟨0x1000000000000000000000000, 0x1000346d6ff11672ae55ad010⟩ :=
    SqrtRange.isStored_iff.mpr ⟨by decide, by decide, by decide⟩
  have h0 : amount0 ⟨0xfffcb933bd6fad37aa2d162e, 0x1000346d6ff11672ae55ad010⟩ 20001499988 true =
      .ok 2000050 := (amount0_eq_ok_iff hwhole).mpr (by decide +kernel)
  have h1 : amount1 ⟨0xfffcb933bd6fad37aa2d162e, 0x1000346d6ff11672ae55ad010⟩ 20001499988 true =
      .ok 2000050 := (amount1_eq_ok_iff hwhole).mpr (by decide +kernel)
  obtain ⟨hsplit0, hsplit1⟩ :=
    amounts_split_at ⟨0xfffcb933bd6fad37aa2d162e, 0x1000346d6ff11672ae55ad010⟩
      0x1000000000000000000000000 20001499988 true (by decide) (by decide) (by decide) (by decide)
  obtain ⟨x0, y0, hx0, hy0, hparts0⟩ := hsplit0 _ h0
  obtain rfl : x0 = 1000050 :=
    eq_of_eq_ok hx0 ((amount0_eq_ok_iff hbelow).mpr (by decide +kernel))
  obtain rfl : y0 = 1000001 :=
    eq_of_eq_ok hy0 ((amount0_eq_ok_iff habove).mpr (by decide +kernel))
  obtain ⟨x1, y1, hx1, hy1, hparts1⟩ := hsplit1 _ h1
  obtain rfl : x1 = 1000001 :=
    eq_of_eq_ok hx1 ((amount1_eq_ok_iff hbelow).mpr (by decide +kernel))
  obtain rfl : y1 = 1000050 :=
    eq_of_eq_ok hy1 ((amount1_eq_ok_iff habove).mpr (by decide +kernel))
  exact ⟨by decide, by decide, by decide, by decide, h0, h1, hx0, hy0, hparts0, hx1, hy1, hparts1⟩

/-! ### An amount or a liquidity in two parts -/

/-- If the formula has a result for a sum, it has one for each of the two terms, and the two come to
the result of the sum but for one unit of rounding. -/
def Splits (up : Bool) (f : UInt128 → Except Error UInt128) : Prop :=
  ∀ a b s, a.toNat + b.toNat < 2 ^ 128 → f (a + b) = .ok s →
    ∃ x y, f a = .ok x ∧ f b = .ok y ∧ IsSplit up s.toNat x.toNat y.toNat

/-- The formula multiplies by `k`, divides by `d` and rounds once. -/
structure IsProportional (up : Bool) (f : UInt128 → Except Error UInt128) (k d : ℕ) : Prop where
  pos : 0 < d
  stores : ∀ a, Stores (f a) (roundedDiv up (a.toNat * k) d)

/-- It is enough that the formula is proportional where it has a result: what is no range of stored
prices has none at all. -/
theorem splits_of_isProportional {up : Bool} {f : UInt128 → Except Error UInt128} {k d : ℕ}
    (hf : ∀ a s, f a = .ok s → IsProportional up f k d) : Splits up f := by
  intro a b s hfit hs
  obtain ⟨hd, hstores⟩ := hf _ _ hs
  have hsum := hstores (a + b)
  rw [BitVec.toNat_add_of_lt hfit, Nat.add_mul] at hsum
  exact hsum.exists_parts hd (hstores a) (hstores b) hs

section
variable {r : SqrtRange}

theorem isProportional_ofAmount0 (h : r.IsStored) : IsProportional false (ofAmount0 r)
    (r.lower.toNat * r.upper.toNat / 2 ^ 96) r.span where
  pos := h.span_pos
  stores _ _ := ofAmount0_eq_ok_iff h

theorem isProportional_ofAmount1 (h : r.IsStored) :
    IsProportional false (ofAmount1 r) (2 ^ 96) r.span where
  pos := h.span_pos
  stores _ _ := ofAmount1_eq_ok_iff h

theorem isProportional_amount0 (h : r.IsStored) (up : Bool) :
    IsProportional up (amount0 r · up) (2 ^ 96 * r.span) (r.upper.toNat * r.lower.toNat) where
  pos := Nat.mul_pos (h.pos.trans h.lt) h.pos
  stores l := by
    rw [← Nat.mul_assoc]
    exact stores_amount0 h l up

theorem isProportional_amount1 (h : r.IsStored) (up : Bool) :
    IsProportional up (amount1 r · up) r.span (2 ^ 96) where
  pos := by positivity
  stores l := stores_amount1 h l up

end

section
variable (r : SqrtRange)

theorem splits_ofAmount0 : Splits false (ofAmount0 r) :=
  splits_of_isProportional fun _ _ hs => isProportional_ofAmount0 (SqrtRange.isStored_of_bind hs)

theorem splits_ofAmount1 : Splits false (ofAmount1 r) :=
  splits_of_isProportional fun _ _ hs => isProportional_ofAmount1 (SqrtRange.isStored_of_bind hs)

theorem splits_amount0 (up : Bool) : Splits up (amount0 r · up) :=
  splits_of_isProportional fun _ _ hs => isProportional_amount0 (SqrtRange.isStored_of_bind hs) up

theorem splits_amount1 (up : Bool) : Splits up (amount1 r · up) :=
  splits_of_isProportional fun _ _ hs => isProportional_amount1 (SqrtRange.isStored_of_bind hs) up

end

/-- The lesser of the two sides is rounded no further, but the sides can change places, so here the
parts may fall short of the whole by any amount. -/
theorem ofAmounts_split {current : SqrtPrice} {r : SqrtRange} {a b : AmountPair} {s : Liquidity}
    (hfit0 : a.amount0.toNat + b.amount0.toNat < 2 ^ 128)
    (hfit1 : a.amount1.toNat + b.amount1.toNat < 2 ^ 128)
    (hs : ofAmounts current r ⟨a.amount0 + b.amount0, a.amount1 + b.amount1⟩ = .ok s) :
    ∃ x y, ofAmounts current r a = .ok x ∧ ofAmounts current r b = .ok y ∧
      x.toNat + y.toNat ≤ s.toNat := by
  have h := isStored_of_ofAmounts hs
  by_cases hlow : current ≤ r.lower
  · simp only [ofAmounts_below h hlow] at hs ⊢
    obtain ⟨x, y, hx, hy, hle, -⟩ := splits_ofAmount0 r _ _ _ hfit0 hs
    exact ⟨x, y, hx, hy, hle⟩
  rw [BitVec.not_le] at hlow
  by_cases hhigh : current < r.upper
  · simp only [ofAmounts_inside h hlow hhigh, bind_eq_ok_iff] at hs
    obtain ⟨side0, h0, side1, h1, hmin⟩ := hs
    obtain ⟨x0, y0, hx0, hy0, hle0, -⟩ := splits_ofAmount0 _ _ _ _ hfit0 h0
    obtain ⟨x1, y1, hx1, hy1, hle1, -⟩ := splits_ofAmount1 _ _ _ _ hfit1 h1
    refine ⟨_, _, by rw [ofAmounts_inside h hlow hhigh, hx0, ok_bind, hx1, ok_bind],
      by rw [ofAmounts_inside h hlow hhigh, hy0, ok_bind, hy1, ok_bind], ?_⟩
    rw [← Except.ok.inj hmin, toNat_lesser, toNat_lesser, toNat_lesser]
    omega
  · simp only [ofAmounts_above h (BitVec.not_lt.mp hhigh)] at hs ⊢
    obtain ⟨x, y, hx, hy, hle, -⟩ := splits_ofAmount1 r _ _ _ hfit1 hs
    exact ⟨x, y, hx, hy, hle⟩

/-- Whoever splits an amount or a liquidity gains nothing by it and loses at most one unit, for
either token and however the amounts are rounded; and two pairs of amounts give no more liquidity
than their sum. -/
theorem splitting_gains_nothing (current : SqrtPrice) (r : SqrtRange) :
    (Splits false (ofAmount0 r) ∧ Splits false (ofAmount1 r)) ∧
    (∀ (a b : AmountPair) (s : Liquidity),
      a.amount0.toNat + b.amount0.toNat < 2 ^ 128 →
      a.amount1.toNat + b.amount1.toNat < 2 ^ 128 →
      ofAmounts current r ⟨a.amount0 + b.amount0, a.amount1 + b.amount1⟩ = .ok s →
      ∃ x y, ofAmounts current r a = .ok x ∧ ofAmounts current r b = .ok y ∧
        x.toNat + y.toNat ≤ s.toNat) ∧
    ∀ up, Splits up (amount0 r · up) ∧ Splits up (amount1 r · up) :=
  ⟨⟨splits_ofAmount0 r, splits_ofAmount1 r⟩,
    fun _ _ _ hfit0 hfit1 hs => ofAmounts_split hfit0 hfit1 hs,
    fun up => ⟨splits_amount0 r up, splits_amount1 r up⟩⟩

/-- Between the ticks -1 and 1: in two parts, a liquidity costs one unit more of token 0, and two
pairs of amounts give less than their sum, for each has too much of one token. -/
theorem splitting_gains_nothing_at_one :
    ofAmounts 0x1000000000000000000000000
      ⟨0xfffcb933bd6fad37aa2d162e, 0x1000346d6ff11672ae55ad010⟩
      ⟨300000 + 700000, 400000 + 600001⟩ = .ok 20001499987 ∧
    ofAmounts 0x1000000000000000000000000
      ⟨0xfffcb933bd6fad37aa2d162e, 0x1000346d6ff11672ae55ad010⟩ ⟨300000, 400000⟩ =
        .ok 6000449996 ∧
    ofAmounts 0x1000000000000000000000000
      ⟨0xfffcb933bd6fad37aa2d162e, 0x1000346d6ff11672ae55ad010⟩ ⟨700000, 600001⟩ =
        .ok 12000919994 ∧
    (6000449996 : Liquidity).toNat + (12000919994 : Liquidity).toNat ≤
      (20001499987 : Liquidity).toNat ∧
    ofAmount0 ⟨0xfffcb933bd6fad37aa2d162e, 0x1000346d6ff11672ae55ad010⟩ (300000 + 700000) =
      .ok 10000499987 ∧
    ofAmount0 ⟨0xfffcb933bd6fad37aa2d162e, 0x1000346d6ff11672ae55ad010⟩ 300000 =
      .ok 3000149996 ∧
    ofAmount0 ⟨0xfffcb933bd6fad37aa2d162e, 0x1000346d6ff11672ae55ad010⟩ 700000 =
      .ok 7000349991 ∧
    IsSplit false 10000499987 3000149996 7000349991 ∧
    amount0 ⟨0xfffcb933bd6fad37aa2d162e, 0x1000346d6ff11672ae55ad010⟩
      (10000000000 + 10001499987) true = .ok 2000050 ∧
    amount0 ⟨0xfffcb933bd6fad37aa2d162e, 0x1000346d6ff11672ae55ad010⟩ 10000000000 true =
      .ok 999951 ∧
    amount0 ⟨0xfffcb933bd6fad37aa2d162e, 0x1000346d6ff11672ae55ad010⟩ 10001499987 true =
      .ok 1000100 ∧
    IsSplit true 2000050 999951 1000100 := by
  have hstored : SqrtRange.IsStored ⟨0xfffcb933bd6fad37aa2d162e, 0x1000346d6ff11672ae55ad010⟩ :=
    SqrtRange.isStored_iff.mpr ⟨by decide, by decide, by decide⟩
  have hwhole : ofAmounts 0x1000000000000000000000000
      ⟨0xfffcb933bd6fad37aa2d162e, 0x1000346d6ff11672ae55ad010⟩
      ⟨300000 + 700000, 400000 + 600001⟩ = .ok 20001499987 := by decide +kernel
  have h0 : ofAmount0 ⟨0xfffcb933bd6fad37aa2d162e, 0x1000346d6ff11672ae55ad010⟩ (300000 + 700000) =
      .ok 10000499987 := (ofAmount0_eq_ok_iff hstored).mpr (by decide +kernel)
  have h1 : amount0 ⟨0xfffcb933bd6fad37aa2d162e, 0x1000346d6ff11672ae55ad010⟩
      (10000000000 + 10001499987) true = .ok 2000050 :=
    (amount0_eq_ok_iff hstored).mpr (by decide +kernel)
  obtain ⟨⟨hfound, -⟩, hboth, hworth⟩ := splitting_gains_nothing 0x1000000000000000000000000
    ⟨0xfffcb933bd6fad37aa2d162e, 0x1000346d6ff11672ae55ad010⟩
  obtain ⟨x, y, hx, hy, hsum⟩ :=
    hboth ⟨300000, 400000⟩ ⟨700000, 600001⟩ _ (by decide) (by decide) hwhole
  obtain rfl : x = 6000449996 := eq_of_eq_ok hx (by decide +kernel)
  obtain rfl : y = 12000919994 := eq_of_eq_ok hy (by decide +kernel)
  obtain ⟨u, v, hu, hv, hfounds⟩ := hfound _ _ _ (by decide) h0
  obtain rfl : u = 3000149996 :=
    eq_of_eq_ok hu ((ofAmount0_eq_ok_iff hstored).mpr (by decide +kernel))
  obtain rfl : v = 7000349991 :=
    eq_of_eq_ok hv ((ofAmount0_eq_ok_iff hstored).mpr (by decide +kernel))
  obtain ⟨a, b, ha, hb, hworths⟩ := (hworth true).1 _ _ _ (by decide) h1
  obtain rfl : a = 999951 :=
    eq_of_eq_ok ha ((amount0_eq_ok_iff hstored).mpr (by decide +kernel))
  obtain rfl : b = 1000100 :=
    eq_of_eq_ok hb ((amount0_eq_ok_iff hstored).mpr (by decide +kernel))
  exact ⟨hwhole, hx, hy, hsum, h0, hu, hv, hfounds, h1, ha, hb, hworths⟩

end Liquidity

end LiquidityBand
