import LiquidityBand.Tick.Basic

/-!
# Square-root price of a tick

The square-root price of tick `t` is `1.0001 ^ (t / 2)`. For a tick that is not positive it is the
product of the factors `1.0001 ^ (-(2 ^ i) / 2)` over the binary places `i` of `-t`; for a positive
one it is the reciprocal of that product. The products are kept with 128 fractional bits, and the
last step rounds up to 96.

* `Tick.fallingRatio` is the product, each partial product rounded down;
* `Tick.sqrtPrice` is the square-root price.
-/

namespace LiquidityBand.Tick

/-- The powers `1.0001 ^ (-(2 ^ i) / 2)` for `i` from 0 to 19, times `2 ^ 128`. -/
def halvingFactors : List Nat :=
  [ 0xfffcb933bd6fad37aa2d162d1a594001,
    0xfff97272373d413259a46990580e213a,
    0xfff2e50f5f656932ef12357cf3c7fdcc,
    0xffe5caca7e10e4e61c3624eaa0941cd0,
    0xffcb9843d60f6159c9db58835c926644,
    0xff973b41fa98c081472e6896dfb254c0,
    0xff2ea16466c96a3843ec78b326b52861,
    0xfe5dee046a99a2a811c461f1969c3053,
    0xfcbe86c7900a88aedcffc83b479aa3a4,
    0xf987a7253ac413176f2b074cf7815e54,
    0xf3392b0822b70005940c7a398e4b70f3,
    0xe7159475a2c29b7443b29c7fa6e889d9,
    0xd097f3bdfd2022b8845ad8f792aa5825,
    0xa9f746462d870fdf8a65dc1f90e061e5,
    0x70d869a156d2a1b890bb3df62baf32f7,
    0x31be135f97d08fd981231505542fcfa6,
    0x9aa508b5b7a84e1c677de54f3e99bc9,
    0x5d6af8dedb81196699c329225ee604,
    0x2216e584f5fa1ea926041bedfe98,
    0x48a170391f7dc42444e8fa2 ]

/-- One binary place of the exponent: the ratio times the factor of that place, if its bit is set,
rounded down to 128 fractional bits. -/
def ratioStep (n ratio : Nat) (place : Nat × Nat) : Except Error Nat :=
  if n.testBit place.2 then do
    let product ← fit 256 .fault (ratio * place.1)
    return product.toNat / 2 ^ 128
  else return ratio

/-- The power `1.0001 ^ (-n / 2)`, times `2 ^ 128`. -/
def fallingRatio (n : Nat) : Except Error Nat :=
  halvingFactors.zipIdx.foldlM (ratioStep n) (2 ^ 128)

/-- A number with 32 of its fractional bits dropped, rounded up. -/
def drop32 (ratio : Nat) : Nat := ratio / 2 ^ 32 + if ratio % 2 ^ 32 = 0 then 0 else 1

/-- The square-root price of a tick. -/
def sqrtPrice (t : Tick) : Except Error SqrtPrice :=
  if t.inBounds then do
    let falling ← fallingRatio t.toInt.natAbs
    let ratio ← if 0 < t then quotient (2 ^ 256 - 1) falling else pure falling
    fit 256 .fault (drop32 ratio)
  else .error .tickOutOfBounds

end LiquidityBand.Tick
