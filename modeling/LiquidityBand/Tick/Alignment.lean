import LiquidityBand.Tick.Basic

/-!
# Alignment to the tick spacing

The bounds of a position are multiples of the tick spacing. A lower bound is aligned down and an
upper bound up, so that alignment only ever widens a band. What is made of the two alignments of a
tick takes them as parameters.

* `Tick.alignDown` and `Tick.alignUp` give the nearest multiple on either side, and `Tick.align` the
  one in a given direction;
* `TickBand.align` widens a band to the spacing;
* `TickBand.full` is the widest band of aligned ticks.
-/

namespace LiquidityBand

/-- The direction of an alignment. -/
inductive Rounding where
  /-- Toward the lower ticks. -/
  | down
  /-- Toward the higher ticks. -/
  | up
  deriving DecidableEq, Repr

/-- The tick is a multiple of a positive spacing. -/
def Tick.isAligned (t spacing : Tick) : Bool :=
  0 < spacing && t.toInt.tmod spacing.toInt == 0

/-- The greatest multiple of the spacing that is at most the tick. -/
def Tick.alignDown (t spacing : Tick) : Except Error Tick :=
  if spacing ≤ 0 then .error .nonpositiveSpacing
  else fitInt32 .arithmeticOverflow (t.toInt / spacing.toInt * spacing.toInt)

/-- The least multiple of the spacing that is at least the tick. -/
def Tick.alignUp (t spacing : Tick) : Except Error Tick :=
  if spacing ≤ 0 then .error .nonpositiveSpacing
  else do
    let below := t.toInt / spacing.toInt
    let cell ← fitInt32 .fault (if t.toInt % spacing.toInt = 0 then below else below + 1)
    fitInt32 .arithmeticOverflow (cell.toInt * spacing.toInt)

section
variable (down up : Tick → Tick → Except Error Tick)

/-- The tick, taken down or up as the direction says. -/
def Tick.alignBy (t spacing : Tick) : Rounding → Except Error Tick
  | .down => down t spacing
  | .up => up t spacing

/-- The band with its lower tick taken down and its upper tick taken up, unless it is empty then. -/
def TickBand.alignBy (r : TickBand) (spacing : Tick) : Except Error TickBand := do
  let lower ← down r.lower spacing
  let upper ← up r.upper spacing
  if upper ≤ lower then throw .emptyTickBand
  return ⟨lower, upper⟩

/-- The band from the least tick, taken up, to the greatest one, taken down. -/
def TickBand.fullBy (spacing : Tick) : Except Error TickBand := do
  let lower ← up minTick spacing
  let upper ← down maxTick spacing
  return ⟨lower, upper⟩

end

/-- The tick aligned in the given direction. -/
def Tick.align (t spacing : Tick) (rounding : Rounding) : Except Error Tick :=
  t.alignBy alignDown alignUp spacing rounding

/-- The band with its lower tick aligned down and its upper tick aligned up. -/
def TickBand.align (r : TickBand) (spacing : Tick) : Except Error TickBand :=
  r.alignBy Tick.alignDown Tick.alignUp spacing

/-- The least and the greatest tick that a position can have. -/
def TickBand.full (spacing : Tick) : Except Error TickBand :=
  fullBy Tick.alignDown Tick.alignUp spacing

end LiquidityBand
