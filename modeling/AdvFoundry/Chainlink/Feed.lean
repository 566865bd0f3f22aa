import AdvFoundry.Evm.Tx

/-!
# Chainlink price feeds

What a contract sees of its price feeds: the tuple `latestRoundData` returns,
with a signed answer, and the block it is read in.
-/

namespace AdvFoundry

/-- An `int256`. -/
structure Int256 where
  val : Int
  lower : -2 ^ 255 ≤ val
  upper : val < 2 ^ 255

/-- The conversion `uint256(x)`: negative values wrap. -/
def Int256.toUint256 (x : Int256) : Nat := (x.val % 2 ^ 256).toNat

namespace Int256

variable {x : Int256}

/-- A non-negative value is the `uint256` it is converted to. -/
theorem toUint256_of_nonneg {n : Nat} (h : x.val = n) : x.toUint256 = n := by
  have hupper := x.upper
  rw [h] at hupper
  unfold toUint256
  rw [h, Int.emod_eq_of_lt (Int.natCast_nonneg n) (by omega)]
  exact Int.toNat_natCast n

theorem toUint256_lt : x.toUint256 < uintSize := by
  unfold toUint256 uintSize
  omega

/-- A negative value wraps into the upper half of `uint256`. -/
theorem le_toUint256_of_neg (h : x.val < 0) : 2 ^ 255 ≤ x.toUint256 := by
  have hlower := x.lower
  unfold toUint256
  omega

end Int256

/-- The tuple returned by `AggregatorV3Interface.latestRoundData`. -/
structure RoundData where
  roundId : Nat
  answer : Int256
  startedAt : Nat
  updatedAt : Nat
  answeredInRound : Nat

/-- The block and the answers of the feeds in it. A feed that reverts, or an
account without code, has no answer; the zero address has no code. -/
structure Env where
  timestamp : Nat
  latestRoundData : Address → Option RoundData
  no_feed_at_zero : latestRoundData 0 = none

end AdvFoundry
