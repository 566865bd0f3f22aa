import AdvFoundry.Dsc.Positions
import Mathlib.Algebra.Order.Field.Rat
import Mathlib.Algebra.Order.Field.Basic
import Mathlib.Tactic.Ring
import Mathlib.Tactic.NormNum

/-!
# The two price conversions

`getValueInUSD` multiplies by the price and divides by `1e18`,
`_convertDscToCollateral` the other way round, and both round down. Each is the
other with the two factors exchanged, so what one loses on the way there and
back is one fact about floors, used twice.

`conversions_never_gain`: whatever the price, no way of converting back and forth
ends with more than it started with, and one way there and back loses less than
one unit of each side.
-/

namespace AdvFoundry.Dsc

/-! ## There and back -/

/-- What debt is left of `debt` when it is converted to collateral and back. -/
def debtBack (env : Env) (e : DSCEngine) (token : Address) (debt : Nat) :
    Result EngineError Nat := do
  let amount ← _convertDscToCollateral env e token debt
  getValueInUSD env e token amount

/-- What collateral is left of `amount` when it is converted to debt and back. -/
def collateralBack (env : Env) (e : DSCEngine) (token : Address) (amount : Nat) :
    Result EngineError Nat := do
  let debt ← getValueInUSD env e token amount
  _convertDscToCollateral env e token debt

/-- `f`, `n` times. -/
def repeated (f : Nat → Result EngineError Nat) : Nat → Nat → Result EngineError Nat
  | 0, x => pure x
  | n + 1, x => do
    let y ← f x
    repeated f n y

namespace ConversionLemmas

/-! ### Two floors -/

section Floors

variable {p q : Nat}

theorem back_le (p q x : Nat) : p * (q * x / p) / q ≤ x := by
  rcases Nat.eq_zero_or_pos q with rfl | hq
  · rw [Nat.div_zero]
    exact Nat.zero_le x
  · refine Nat.div_le_of_le_mul ?_
    exact Nat.mul_div_le _ _

/-- The first floor loses less than one of its unit, which is worth `p / q`, and
the second less than one of its own. -/
theorem lt_back (hp : 0 < p) (hq : 0 < q) (x : Nat) :
    q * x < q * (p * (q * x / p) / q) + q + p := by
  have hthere : q * x < p * (q * x / p + 1) := Nat.lt_mul_div_succ _ hp
  have hback : p * (q * x / p) < q * (p * (q * x / p) / q + 1) := Nat.lt_mul_div_succ _ hq
  rw [Nat.mul_add, Nat.mul_one] at hthere hback
  omega

theorem lost_lt (hp : 0 < p) (hq : 0 < q) (x : Nat) :
    (x : ℚ) - (p * (q * x / p) / q : ℕ) < (p : ℚ) / q + 1 := by
  have hq' : (0 : ℚ) < q := Nat.cast_pos.mpr hq
  have hlt : (q * x : ℚ) < q * (p * (q * x / p) / q : ℕ) + q + p := by
    exact_mod_cast lt_back hp hq x
  rw [div_add_one hq'.ne', lt_div_iff₀ hq']
  calc ((x : ℚ) - (p * (q * x / p) / q : ℕ)) * q
      = q * x - q * (p * (q * x / p) / q : ℕ) := by ring
    _ < p + q := by
        rw [sub_lt_iff_lt_add]
        calc (q * x : ℚ) < q * (p * (q * x / p) / q : ℕ) + q + p := hlt
          _ = p + q + q * (p * (q * x / p) / q : ℕ) := by ring

end Floors

/-- A function that returns at most its argument, and returns for smaller
arguments when it does for larger ones, does so any number of times. -/
theorem repeated_le {f : Nat → Result EngineError Nat} {bound : Nat}
    (hf : ∀ x, x ≤ bound → ∃ y, f x = .ok y ∧ y ≤ x) (n : Nat) :
    ∀ x, x ≤ bound → ∃ y, repeated f n x = .ok y ∧ y ≤ x := by
  induction n with
  | zero => exact fun x _ => ⟨x, rfl, Nat.le_refl x⟩
  | succ n ih =>
    intro x hx
    obtain ⟨y, hy, hyx⟩ := hf x hx
    obtain ⟨z, hz, hzy⟩ := ih y (Nat.le_trans hyx hx)
    exact ⟨z, Result.bind_ok.mpr ⟨y, hy, hz⟩, Nat.le_trans hzy hyx⟩

/-! ### What the functions return -/

section Returns

variable {env : Env} {e : DSCEngine} {token : Address} {round : RoundData} {P : Nat}
  (hround : getLatestRoundDataAndRevertIfStale env (e.priceFeeds token) = .ok round)
  (hprice : P = round.answer.toUint256 * ADDITIONAL_FEED_PRECISION) (hpos : 0 < P)
  (hfits : P < uintSize)

include hround hprice hfits

theorem value_iff {amount v : Nat} :
    getValueInUSD env e token amount = .ok v ↔
      P * amount < uintSize ∧ P * amount / PRECISION = v := by
  subst hprice
  simp [getValueInUSD, hround, hfits, PRECISION]

theorem value_mono {a a' v' : Nat} (h : a ≤ a') (hv' : getValueInUSD env e token a' = .ok v') :
    ∃ v, getValueInUSD env e token a = .ok v ∧ v ≤ v' := by
  obtain ⟨ha', rfl⟩ := (value_iff hround hprice hfits).mp hv'
  have hle : P * a ≤ P * a' := Nat.mul_le_mul_left P h
  exact ⟨_, (value_iff hround hprice hfits).mpr ⟨Nat.lt_of_le_of_lt hle ha', rfl⟩,
    Nat.div_le_div_right hle⟩

/-- Two remainders make at most one more unit. -/
theorem value_add {a b v : Nat} (hv : getValueInUSD env e token (a + b) = .ok v) :
    ∃ va vb, getValueInUSD env e token a = .ok va ∧ getValueInUSD env e token b = .ok vb ∧
      va + vb ≤ v ∧ v ≤ va + vb + 1 := by
  obtain ⟨va, hva, -⟩ := value_mono hround hprice hfits (Nat.le_add_right a b) hv
  obtain ⟨vb, hvb, -⟩ := value_mono hround hprice hfits (Nat.le_add_left b a) hv
  refine ⟨va, vb, hva, hvb, ?_⟩
  obtain ⟨-, rfl⟩ := (value_iff hround hprice hfits).mp hv
  obtain ⟨-, rfl⟩ := (value_iff hround hprice hfits).mp hva
  obtain ⟨-, rfl⟩ := (value_iff hround hprice hfits).mp hvb
  rw [Nat.mul_add]
  simp only [PRECISION]
  omega

include hpos

theorem convert_iff {debt a : Nat} :
    _convertDscToCollateral env e token debt = .ok a ↔
      PRECISION * debt < uintSize ∧ PRECISION * debt / P = a := by
  subst hprice
  simp only [_convertDscToCollateral, hround, Result.bind_ok, Except.ok.injEq, mulU_ok, divU_ok,
    Nat.mul_comm debt]
  constructor
  · rintro ⟨_, rfl, _, ⟨hdebt, rfl⟩, _, ⟨-, rfl⟩, -, rfl⟩
    exact ⟨hdebt, rfl⟩
  · rintro ⟨hdebt, rfl⟩
    exact ⟨_, rfl, _, ⟨hdebt, rfl⟩, _, ⟨hfits, rfl⟩, hpos.ne', rfl⟩

theorem convert_mono {d d' a' : Nat} (h : d ≤ d')
    (ha' : _convertDscToCollateral env e token d' = .ok a') :
    ∃ a, _convertDscToCollateral env e token d = .ok a ∧ a ≤ a' := by
  obtain ⟨hd', rfl⟩ := (convert_iff hround hprice hpos hfits).mp ha'
  have hle : PRECISION * d ≤ PRECISION * d' := Nat.mul_le_mul_left PRECISION h
  exact ⟨_, (convert_iff hround hprice hpos hfits).mpr ⟨Nat.lt_of_le_of_lt hle hd', rfl⟩,
    Nat.div_le_div_right hle⟩

/-- The product of the way back is at most that of the way there. -/
theorem debt_back {d a : Nat} (ha : _convertDscToCollateral env e token d = .ok a) :
    ∃ d', getValueInUSD env e token a = .ok d' ∧ d' ≤ d ∧
      (d : ℚ) - d' < (P : ℚ) / PRECISION + 1 := by
  obtain ⟨hd, rfl⟩ := (convert_iff hround hprice hpos hfits).mp ha
  have hback : P * (PRECISION * d / P) < uintSize := Nat.lt_of_le_of_lt (Nat.mul_div_le _ _) hd
  exact ⟨_, (value_iff hround hprice hfits).mpr ⟨hback, rfl⟩, back_le P PRECISION d,
    lost_lt hpos (by decide) d⟩

theorem collateral_back {a d : Nat} (hd : getValueInUSD env e token a = .ok d) :
    ∃ a', _convertDscToCollateral env e token d = .ok a' ∧ a' ≤ a ∧
      (a : ℚ) - a' < (PRECISION : ℚ) / P + 1 := by
  obtain ⟨ha, rfl⟩ := (value_iff hround hprice hfits).mp hd
  have hback : PRECISION * (P * a / PRECISION) < uintSize :=
    Nat.lt_of_le_of_lt (Nat.mul_div_le _ _) ha
  exact ⟨_, (convert_iff hround hprice hpos hfits).mpr ⟨hback, rfl⟩, back_le PRECISION P a,
    lost_lt (by decide) hpos a⟩

theorem debtBack_repeated (n : Nat) {d a : Nat}
    (ha : _convertDscToCollateral env e token d = .ok a) :
    ∃ d', repeated (debtBack env e token) n d = .ok d' ∧ d' ≤ d := by
  refine repeated_le (fun x hx => ?_) n d (Nat.le_refl d)
  obtain ⟨y, hy, -⟩ := convert_mono hround hprice hpos hfits hx ha
  obtain ⟨x', hx', hle, -⟩ := debt_back hround hprice hpos hfits hy
  exact ⟨x', Result.bind_ok.mpr ⟨y, hy, hx'⟩, hle⟩

theorem collateralBack_repeated (n : Nat) {a d : Nat} (hd : getValueInUSD env e token a = .ok d) :
    ∃ a', repeated (collateralBack env e token) n a = .ok a' ∧ a' ≤ a := by
  refine repeated_le (fun x hx => ?_) n a (Nat.le_refl a)
  obtain ⟨y, hy, -⟩ := value_mono hround hprice hfits hx hd
  obtain ⟨x', hx', hle, -⟩ := collateral_back hround hprice hpos hfits hy
  exact ⟨x', Result.bind_ok.mpr ⟨y, hy, hx'⟩, hle⟩

end Returns

end ConversionLemmas

open ConversionLemmas

/-- With a feed that is accepted at the price `P = price * 1e10`, and amounts for
which no product overflows: both conversions are monotone; there and back gives
at most the amount one began with and less than one unit of each side less; the
value of a sum is the sum of the values, or one more; and no number of round
trips from either side gains anything. Each trip back returns when the trip
there does. -/
theorem conversions_never_gain {env : Env} {e : DSCEngine} {token : Address} {round : RoundData}
    {P : Nat} (hround : getLatestRoundDataAndRevertIfStale env (e.priceFeeds token) = .ok round)
    (hprice : P = round.answer.toUint256 * ADDITIONAL_FEED_PRECISION) (hpos : 0 < P)
    (hfits : P < uintSize) :
    (∀ a a' v', a ≤ a' → getValueInUSD env e token a' = .ok v' →
      ∃ v, getValueInUSD env e token a = .ok v ∧ v ≤ v') ∧
    (∀ d d' a', d ≤ d' → _convertDscToCollateral env e token d' = .ok a' →
      ∃ a, _convertDscToCollateral env e token d = .ok a ∧ a ≤ a') ∧
    (∀ d a, _convertDscToCollateral env e token d = .ok a →
      ∃ d', getValueInUSD env e token a = .ok d' ∧ d' ≤ d ∧
        (d : ℚ) - d' < (P : ℚ) / 10 ^ 18 + 1) ∧
    (∀ a d, getValueInUSD env e token a = .ok d →
      ∃ a', _convertDscToCollateral env e token d = .ok a' ∧ a' ≤ a ∧
        (a : ℚ) - a' < (10 ^ 18 : ℚ) / P + 1) ∧
    (∀ a b v, getValueInUSD env e token (a + b) = .ok v →
      ∃ va vb, getValueInUSD env e token a = .ok va ∧ getValueInUSD env e token b = .ok vb ∧
        va + vb ≤ v ∧ v ≤ va + vb + 1) ∧
    (∀ n d a, _convertDscToCollateral env e token d = .ok a →
      ∃ d', repeated (debtBack env e token) n d = .ok d' ∧ d' ≤ d) ∧
    ∀ n a d, getValueInUSD env e token a = .ok d →
      ∃ a', repeated (collateralBack env e token) n a = .ok a' ∧ a' ≤ a := by
  have hunit : (PRECISION : ℚ) = 10 ^ 18 := by norm_num [PRECISION]
  refine ⟨fun a a' v' h hv' => value_mono hround hprice hfits h hv',
    fun d d' a' h ha' => convert_mono hround hprice hpos hfits h ha', fun d a ha => ?_,
    fun a d hd => ?_, fun a b v hv => value_add hround hprice hfits hv,
    fun n d a ha => debtBack_repeated hround hprice hpos hfits n ha,
    fun n a d hd => collateralBack_repeated hround hprice hpos hfits n hd⟩
  · rw [← hunit]
    exact debt_back hround hprice hpos hfits ha
  · rw [← hunit]
    exact collateral_back hround hprice hpos hfits hd

/-- At two thousand dollars, what a token is worth buys at most one back. -/
theorem conversions_never_gain_two_thousand :
    getValueInUSD (sampleEnv price2000) sampleWorld.engine 3 (10 ^ 18) = .ok (2000 * 10 ^ 18) ∧
      ∃ a', _convertDscToCollateral (sampleEnv price2000) sampleWorld.engine 3 (2000 * 10 ^ 18) =
        .ok a' ∧ a' ≤ 10 ^ 18 ∧
          ((10 ^ 18 : ℕ) : ℚ) - a' < (10 ^ 18 : ℚ) / ((2000 * 10 ^ 18 : ℕ) : ℚ) + 1 := by
  have hvalue : getValueInUSD (sampleEnv price2000) sampleWorld.engine 3 (10 ^ 18) =
      .ok (2000 * 10 ^ 18) := by decide +kernel
  have hround : getLatestRoundDataAndRevertIfStale (sampleEnv price2000)
      (sampleWorld.engine.priceFeeds 3) = .ok _ := sampleEnv_fresh price2000
  have hgain := conversions_never_gain hround (P := 2000 * 10 ^ 18) (by decide +kernel) (by decide)
    (by decide)
  exact ⟨hvalue, hgain.2.2.2.1 _ _ hvalue⟩

end AdvFoundry.Dsc
