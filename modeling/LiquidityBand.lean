import LiquidityBand.Session
import LiquidityBand.Tick.Logarithm
import LiquidityBand.Wide.Numeral
import LiquidityBand.Proofs.Wide.Division
import LiquidityBand.Proofs.Wide.Shift
import LiquidityBand.Proofs.Wide.Numeral
import LiquidityBand.Proofs.ProductQuotient
import LiquidityBand.Proofs.Amount.Rescale
import LiquidityBand.Proofs.Amount.Text
import LiquidityBand.Proofs.Json.Codec
import LiquidityBand.Proofs.Config
import LiquidityBand.Proofs.Tick.Grid
import LiquidityBand.Proofs.Tick.SqrtPrice
import LiquidityBand.Proofs.Tick.Accuracy
import LiquidityBand.Proofs.Tick.Inversion
import LiquidityBand.Proofs.Tick.Logarithm
import LiquidityBand.Proofs.Tick.Alignment
import LiquidityBand.Proofs.Tick.Range
import LiquidityBand.Proofs.Liquidity.OneSided
import LiquidityBand.Proofs.Liquidity.TwoSided
import LiquidityBand.Proofs.Liquidity.Deposit
import LiquidityBand.Proofs.Liquidity.Largest
import LiquidityBand.Proofs.Liquidity.Movement
import LiquidityBand.Proofs.Liquidity.Splitting
import LiquidityBand.Proofs.Liquidity.RoundTrip
import LiquidityBand.Proofs.Liquidity.Verdict
import LiquidityBand.Proofs.Double.Packing
import LiquidityBand.Proofs.Double.Pattern
import LiquidityBand.Proofs.Double.Order
import LiquidityBand.Proofs.Double.Rounding
import LiquidityBand.Proofs.Price
import LiquidityBand.Proofs.Status
import LiquidityBand.Proofs.Plan.Band
import LiquidityBand.Proofs.Plan.Reports
import LiquidityBand.Proofs.Plan.Containment
import LiquidityBand.Proofs.Plan.Verdict
import LiquidityBand.Proofs.Plan.Default
import LiquidityBand.Proofs.Plan.Prices
import LiquidityBand.Proofs.Guarded.Register
import LiquidityBand.Proofs.Guarded.Words
import LiquidityBand.Proofs.Guarded.Shift
import LiquidityBand.Proofs.Guarded.WholePart
import LiquidityBand.Proofs.Guarded.Product
import LiquidityBand.Proofs.Guarded.Division
import LiquidityBand.Proofs.Guarded.Numeral
import LiquidityBand.Proofs.Guarded.ProductQuotient
import LiquidityBand.Proofs.Guarded.Tick
import LiquidityBand.Proofs.Tick.Nearest
import LiquidityBand.Proofs.Tick.Enclosure
import LiquidityBand.Proofs.Guarded.Logarithm
import LiquidityBand.Proofs.Guarded.Liquidity
import LiquidityBand.Proofs.Guarded.Amount
import LiquidityBand.Proofs.Guarded.Plan
import LiquidityBand.Proofs.Guarded.Operation
