import LiquidityBand.Json.Codec
import LiquidityBand.Proofs.Json.Record

/-!
# Values that are written are read

Every value of the domain fits the fields of its record, whatever it is: the bounds of the numbers
are those of the types, and the numbers that could be too wide for other readers stand between
quotes or are read without going through 64 bits.

* `Json.Codec.IsFaithful` says that a record has room for all values of its type and gives them
  back, and `Json.Codec.IsFaithful.decode_encode` is the round trip;
* `Json.planText`, `Json.tickBandText`, `Json.amountPairText` and `Json.configText` are the texts
  that are written;
* `Json.written_values_are_read` puts them together.
-/

namespace LiquidityBand.Json

/-- The record has room for all values, and gives them back. -/
structure Codec.IsFaithful {α : Type} (codec : Codec α) : Prop where
  sound : codec.shape.IsSound
  allow : ∀ a, Allow codec.shape.fields (codec.toValues a)
  ofValues_toValues : ∀ a, codec.ofValues (codec.toValues a) = some a

theorem Codec.IsFaithful.decode_encode {α : Type} {codec : Codec α} (h : codec.IsFaithful) (a : α) :
    codec.decode (codec.encode a) = .ok a := by
  rw [decode, encode, Shape.decode_encode h.sound (h.allow a), ok_bind, h.ofValues_toValues]
  rfl

/-! ### Forms -/

instance : DecidablePred IntegerForm.IsReadable := fun form =>
  match form with
  | .number _ _ _ => inferInstanceAs (Decidable (_ ∧ _))
  | .natural _ => inferInstanceAs (Decidable True)
  | .quotedNatural _ => inferInstanceAs (Decidable True)

instance : DecidablePred Field.IsSound := fun field =>
  -- not by the quantifier over characters, which could be decided by trying all of them
  decidable_of_iff
    (field.name.toList.all isPlain ∧ field.form.IsReadable)
    ⟨fun h => ⟨List.all_eq_true.mp h.1, h.2⟩, fun h => ⟨List.all_eq_true.mpr h.1, h.2⟩⟩

instance : DecidablePred Shape.IsSound := fun shape =>
  decidable_of_iff
    ((∀ field ∈ shape.fields, field.IsSound) ∧ (shape.fields.map Field.name).Nodup)
    ⟨fun h => ⟨h.1, h.2⟩, fun h => ⟨h.1, h.2⟩⟩

theorem tickForm_allows (t : Tick) : tickForm.allows t.toInt := by
  have hlow := Int32.le_toInt t
  have hhigh := Int32.toInt_lt t
  simp only [tickForm, IntegerForm.allows, Bool.and_eq_true, decide_eq_true_iff]
  omega

theorem decimalsForm_allows (d : UInt8) : decimalsForm.allows d.toNat := by
  have hlt := d.toNat_lt
  simp only [decimalsForm, IntegerForm.allows, Bool.and_eq_true, decide_eq_true_iff]
  omega

theorem natural_allows {w : ℕ} (x : BitVec w) : (IntegerForm.natural w).allows x.toNat := by
  simp only [IntegerForm.allows, Bool.and_eq_true, decide_eq_true_iff]
  exact ⟨Int.natCast_nonneg _, by exact_mod_cast x.isLt⟩

theorem quotedNatural_allows {w : ℕ} (x : BitVec w) :
    (IntegerForm.quotedNatural w).allows x.toNat :=
  natural_allows x

@[simp] theorem bitVec_ofInt_toNat {w : ℕ} (x : BitVec w) : BitVec.ofInt w x.toNat = x := by
  rw [BitVec.ofInt_natCast, BitVec.ofNat_toNat, BitVec.setWidth_eq]

@[simp] theorem uInt8_ofInt_toNat (d : UInt8) : UInt8.ofInt d.toNat = d := by
  have hsmall : ((d.toNat : ℤ) % 2 ^ 8).toNat = d.toNat := by
    have hlt := d.toNat_lt
    omega
  rw [UInt8.ofInt, hsmall, UInt8.ofNat_toNat]

/-! ### Records -/

theorem tickBand_isFaithful : tickBand.IsFaithful where
  sound := by decide
  allow band := .cons (tickForm_allows _) (.cons (tickForm_allows _) .nil)
  ofValues_toValues band := by simp [tickBand]

theorem amountPair_isFaithful : amountPair.IsFaithful where
  sound := by decide
  allow amounts := .cons (natural_allows _) (.cons (natural_allows _) .nil)
  ofValues_toValues amounts := by simp [amountPair]

theorem config_isFaithful : config.IsFaithful where
  sound := by decide
  allow c := .cons (tickForm_allows _) (.cons (decimalsForm_allows _)
    (.cons (decimalsForm_allows _) (.cons (tickForm_allows _) (.cons (tickForm_allows _) .nil))))
  ofValues_toValues c := by simp [config, configValues, configOfValues]

theorem plan_isFaithful : plan.IsFaithful where
  sound := by decide
  allow p := .cons (tickForm_allows _) (.cons (tickForm_allows _)
    (.cons (quotedNatural_allows _) (.cons (quotedNatural_allows _)
      (.cons (quotedNatural_allows _) (.cons (quotedNatural_allows _) .nil)))))
  ofValues_toValues p := by simp [plan]

/-! ### Texts -/

/-- The text of a range of ticks. -/
def tickBandText (band : TickBand) : String :=
  objectText
    [("tick_lower_index", toString band.lower.toInt),
      ("tick_upper_index", toString band.upper.toInt)]

/-- The text of the amounts of both tokens, which are numbers without quotes of any size. -/
def amountPairText (amounts : AmountPair) : String :=
  objectText
    [("amount_0", toString amounts.amount0.toNat), ("amount_1", toString amounts.amount1.toNat)]

/-- The text of planning parameters. -/
def configText (c : Config) : String :=
  objectText
    [("tick_spacing", toString c.tickSpacing.toInt),
      ("deposit_decimals", toString c.depositDecimals.toNat),
      ("margin_decimals", toString c.marginDecimals.toNat),
      ("default_tick_lower_index", toString c.defaultRange.lower.toInt),
      ("default_tick_upper_index", toString c.defaultRange.upper.toInt)]

/-- The text of a plan, whose wide numbers stand between quotes. -/
def planText (p : Plan) : String :=
  objectText
    [("tick_lower_index", toString p.ticks.lower.toInt),
      ("tick_upper_index", toString p.ticks.upper.toInt),
      ("sqrt_price_lower_x96", inQuotes (toString p.sqrtPrices.lower.toNat)),
      ("sqrt_price_upper_x96", inQuotes (toString p.sqrtPrices.upper.toNat)),
      ("amount", inQuotes (toString p.amount.toNat)),
      ("liquidity", inQuotes (toString p.liquidity.toNat))]

theorem encode_tickBand (band : TickBand) : tickBand.encode band = tickBandText band :=
  Shape.encode_eq_objectText _ _

theorem encode_amountPair (amounts : AmountPair) :
    amountPair.encode amounts = amountPairText amounts :=
  Shape.encode_eq_objectText _ _

theorem encode_config (c : Config) : config.encode c = configText c :=
  Shape.encode_eq_objectText _ _

theorem encode_plan (p : Plan) : plan.encode p = planText p :=
  Shape.encode_eq_objectText _ _

example : plan.encode ⟨⟨-60, 120⟩, ⟨0, 2 ^ 96⟩, 7, 0⟩ =
    "\x7b\"tick_lower_index\":-60,\"tick_upper_index\":120,\"sqrt_price_lower_x96\":\"0\"," ++
      "\"sqrt_price_upper_x96\":\"79228162514264337593543950336\",\"amount\":\"7\"," ++
      "\"liquidity\":\"0\"\x7d" := by
  decide +kernel

/-- Every value of the domain has a text, and the text is read as the value: a plan therefore needs
the same deposit after the trip as before. -/
theorem written_values_are_read :
    (∀ p : Plan, p.toJson = planText p ∧ Plan.ofJson p.toJson = .ok p ∧
      (Plan.ofJson p.toJson >>= Plan.required) = p.required) ∧
    (∀ band, tickBand.encode band = tickBandText band ∧
      tickBand.decode (tickBand.encode band) = .ok band) ∧
    (∀ amounts, amountPair.encode amounts = amountPairText amounts ∧
      amountPair.decode (amountPair.encode amounts) = .ok amounts) ∧
    (∀ c, config.encode c = configText c ∧ config.decode (config.encode c) = .ok c) := by
  have hplan (p : Plan) : Plan.ofJson p.toJson = .ok p := by
    rw [Plan.ofJson, Plan.toJson, plan_isFaithful.decode_encode, mapError_ok]
  refine ⟨fun p => ⟨encode_plan p, hplan p, ?_⟩, fun band => ⟨encode_tickBand band, ?_⟩,
    fun amounts => ⟨encode_amountPair amounts, ?_⟩, fun c => ⟨encode_config c, ?_⟩⟩
  · rw [hplan, ok_bind]
  · exact tickBand_isFaithful.decode_encode band
  · exact amountPair_isFaithful.decode_encode amounts
  · exact config_isFaithful.decode_encode c

end LiquidityBand.Json
