import AdvFoundry.Drs.Custody
import AdvFoundry.Drs.Effects

/-!
# Repaying debt

Without debt the health factor of `StableCoinEngine` is `type(uint96).max`, while
with debt it is a quotient of `uint256` values that may be larger: collateral of
a millionth of a dollar and one unit of debt are enough. Repaying the last unit
then makes the position look worse. `DSCEngine` answers `type(uint256).max` there.

`repayment_raises_iff`: that seam is the only place where less debt means a lower
health factor.
-/

namespace AdvFoundry.Drs

open Function

/-- The dividend of the health factor. -/
def adjusted (value : Nat) : Nat := value * LIQUIDATION_THRESHOLD / LIQUIDATION_PRECISION * PRECISION

/-- The health factor of a debt can be computed. -/
def Computable (value : Nat) : Prop :=
  value * LIQUIDATION_THRESHOLD < uintSize ∧ adjusted value < uintSize

/-- Among the debts with a health factor, more debt has no higher one. -/
def NonIncreasing (value : Nat) : Prop :=
  ∀ debt debt' f f', debt ≤ debt' → _getHealthFactor debt value = .ok f →
    _getHealthFactor debt' value = .ok f' → f' ≤ f

namespace RepaymentLemmas

variable {debt value f : Nat} {env : Env} {e : StableCoinEngine} {user : Address}

theorem _getHealthFactor_zero : _getHealthFactor 0 value = .ok f ↔ f = 2 ^ 96 - 1 := by
  rw [_getHealthFactor, if_pos rfl, Result.pure_ok, eq_comm]

theorem _getHealthFactor_pos (h : debt ≠ 0) :
    _getHealthFactor debt value = .ok f ↔ Computable value ∧ f = adjusted value / debt := by
  rw [_getHealthFactor, if_neg h]
  simp only [Result.bind_ok, mulU_ok, divU_ok]
  constructor
  · rintro ⟨_, ⟨hscaled, rfl⟩, _, ⟨-, rfl⟩, _, ⟨hfits, rfl⟩, -, rfl⟩
    exact ⟨⟨hscaled, hfits⟩, rfl⟩
  · rintro ⟨⟨hscaled, hfits⟩, rfl⟩
    exact ⟨_, ⟨hscaled, rfl⟩, _, ⟨by decide, rfl⟩, _, ⟨hfits, rfl⟩, h, rfl⟩

theorem getHealthFactor_ok (hvalue : _getCollateralInUSD env e user = .ok value) :
    getHealthFactor env e user = .ok f ↔
      _getHealthFactor (e.userToDRSminted user) value = .ok f := by
  simp only [getHealthFactor, _getAccountInformation, Result.bind_ok, Result.pure_ok, hvalue,
    Except.ok.injEq]
  constructor
  · rintro ⟨_, ⟨_, rfl, rfl⟩, hf⟩
    exact hf
  · intro hf
    exact ⟨_, ⟨_, rfl, rfl⟩, hf⟩

/-- `burnDRS` takes the amount off the caller's debt and leaves the collateral. -/
theorem burnDRS_record {c : Ctx} {amount : Nat} {w w' : World}
    (h : burnDRS c amount w = .returned () w') :
    0 < amount ∧ amount ≤ w.engine.userToDRSminted c.sender ∧
      w'.engine.userToDRSminted c.sender = w.engine.userToDRSminted c.sender - amount ∧
      ∀ env, _getCollateralInUSD env w'.engine c.sender =
        _getCollateralInUSD env w.engine c.sender := by
  obtain ⟨hcan, _, rfl⟩ := _burn_returned.mp (burnDRS_returned.mp h)
  exact ⟨hcan.pos, hcan.debt, by simp [burnedWorld], fun _ => rfl⟩

/-- Less debt, but not none, raises the quotient. -/
theorem div_adjusted_le {debt' : Nat} (hle : debt ≤ debt') (hpos : debt ≠ 0) :
    adjusted value / debt' ≤ adjusted value / debt :=
  Nat.div_le_div_left hle (Nat.pos_of_ne_zero hpos)

/-- The quotient stays at or below the answer for no debt. -/
theorem div_adjusted_le_seam (hpos : debt ≠ 0) :
    adjusted value / debt ≤ 2 ^ 96 - 1 ↔ adjusted value < 2 ^ 96 * debt := by
  rw [← Nat.div_lt_iff_lt_mul (Nat.pos_of_ne_zero hpos)]
  omega

theorem nonIncreasing_iff :
    NonIncreasing value ↔ (Computable value → adjusted value < 2 ^ 96) := by
  constructor
  · intro hanti hcomputable
    have hone := hanti 0 1 _ _ (Nat.zero_le 1) (_getHealthFactor_zero.mpr rfl)
      ((_getHealthFactor_pos Nat.one_ne_zero).mpr ⟨hcomputable, rfl⟩)
    rwa [div_adjusted_le_seam Nat.one_ne_zero, Nat.mul_one] at hone
  · intro hseam debt debt' f f' hle hf hf'
    rcases eq_or_ne debt' 0 with rfl | hdebt'
    · rw [Nat.le_zero.mp hle, _getHealthFactor_zero] at hf
      rw [_getHealthFactor_zero] at hf'
      exact le_of_eq (hf'.trans hf.symm)
    · obtain ⟨hcomputable, rfl⟩ := (_getHealthFactor_pos hdebt').mp hf'
      rcases eq_or_ne debt 0 with rfl | hdebt
      · rw [_getHealthFactor_zero.mp hf, div_adjusted_le_seam hdebt']
        exact (hseam hcomputable).trans_le (Nat.le_mul_of_pos_right _ (Nat.pos_of_ne_zero hdebt'))
      · obtain ⟨-, rfl⟩ := (_getHealthFactor_pos hdebt).mp hf
        exact div_adjusted_le hle hdebt

end RepaymentLemmas

open RepaymentLemmas

/-- For every `burnDRS` that returns, at every state and all prices at which the
caller has a health factor: the call leaves one that is at least as high, exactly
when debt is left or the collateral is worth less than the seam allows. And for
every value of the collateral the health factor never grows with the debt,
exactly when at one unit of debt it is below `2 ^ 96` or cannot be computed. -/
theorem repayment_raises_iff {c : Ctx} {amount value before : Nat} {w w' : World} {env : Env}
    (h : burnDRS c amount w = .returned () w')
    (hvalue : _getCollateralInUSD env w.engine c.sender = .ok value)
    (hbefore : getHealthFactor env w.engine c.sender = .ok before) :
    ((∃ after, getHealthFactor env w'.engine c.sender = .ok after ∧ before ≤ after) ↔
      amount < w.engine.userToDRSminted c.sender ∨
        adjusted value < 2 ^ 96 * w.engine.userToDRSminted c.sender) ∧
    ∀ value', NonIncreasing value' ↔ (Computable value' → adjusted value' < 2 ^ 96) := by
  refine ⟨?_, fun value' => nonIncreasing_iff⟩
  obtain ⟨hpos, hdebt, hleft, hsame⟩ := burnDRS_record h
  have hne : w.engine.userToDRSminted c.sender ≠ 0 := by omega
  obtain ⟨hcomputable, rfl⟩ := (_getHealthFactor_pos hne).mp ((getHealthFactor_ok hvalue).mp hbefore)
  have hafter (f : Nat) : getHealthFactor env w'.engine c.sender = .ok f ↔
      _getHealthFactor (w.engine.userToDRSminted c.sender - amount) value = .ok f := by
    rw [getHealthFactor_ok ((hsame env).trans hvalue), hleft]
  simp only [hafter]
  rcases hdebt.lt_or_eq with hsome | rfl
  · have hrest : w.engine.userToDRSminted c.sender - amount ≠ 0 := by omega
    refine iff_of_true ⟨_, (_getHealthFactor_pos hrest).mpr ⟨hcomputable, rfl⟩, ?_⟩ (.inl hsome)
    exact div_adjusted_le (Nat.sub_le _ _) hrest
  · -- the last unit: the answer for no debt is compared with the quotient
    simp only [Nat.sub_self, _getHealthFactor_zero, exists_eq_left, lt_irrefl, false_or]
    exact div_adjusted_le_seam hne

theorem borrower_ne : (8 : Address) ≠ 1 := by decide

/-- The account `8` deposits one whole token at two thousand dollars, borrows two
units and approves them for repayment. -/
def borrowTwoEvents : List (Event (Msg 1) Bool) :=
  [.call ⟨8, borrower_ne, .block (Dsc.sampleEnv Dsc.price2000)⟩,
   .call ⟨8, borrower_ne, .token 3 (.approve 1 (10 ^ 18))⟩,
   .call ⟨8, borrower_ne, .engine (.depositCollateral 3 (10 ^ 18))⟩,
   .call ⟨8, borrower_ne, .engine (.mintDRS 2)⟩,
   .call ⟨8, borrower_ne, .token 2 (.approve 1 2)⟩]

def borrowedMachine : EngineMachine :=
  (borrowTwoEvents.foldlM (Machine.next (Msg.exec fun t => t = 3)) ⟨sampleWorld, []⟩).get
    (by decide +kernel)

def repayerCtx : Ctx := ⟨1, 8, fun t => t = 3, borrower_ne⟩

/-- The call of `burnDRS` on that machine. -/
def repaidWorld (amount : Nat) : World :=
  (borrowedMachine.next (Msg.exec fun t => t = 3)
    (.call ⟨8, borrower_ne, .engine (.burnDRS amount)⟩)).elim borrowedMachine.world (·.world)

/-- Repaying one of the two units doubles the health factor. -/
theorem repayment_raises_iff_one_unit :
    burnDRS repayerCtx 1 borrowedMachine.world = .returned () (repaidWorld 1) ∧
      ∃ after, getHealthFactor borrowedMachine.world.env (repaidWorld 1).engine 8 = .ok after ∧
        5 * 10 ^ 38 ≤ after := by
  have hburn : burnDRS repayerCtx 1 borrowedMachine.world = .returned () (repaidWorld 1) := rfl
  have hvalue : _getCollateralInUSD borrowedMachine.world.env borrowedMachine.world.engine 8 =
      .ok (2000 * 10 ^ 18) := by decide +kernel
  have hbefore : getHealthFactor borrowedMachine.world.env borrowedMachine.world.engine 8 =
      .ok (5 * 10 ^ 38) := by decide +kernel
  exact ⟨hburn, (repayment_raises_iff hburn hvalue hbefore).1.mpr (.inl (by decide +kernel))⟩

/-- Repaying both takes the health factor from `5 * 10 ^ 38` to `2 ^ 96 - 1`. -/
theorem last_unit_lowers_health :
    Deployed 1 sampleWorld ∧
      Run (Step 1 fun t => t = 3) ⟨sampleWorld, []⟩ borrowTwoEvents borrowedMachine ∧
      burnDRS repayerCtx 2 borrowedMachine.world = .returned () (repaidWorld 2) ∧
      getHealthFactor borrowedMachine.world.env borrowedMachine.world.engine 8 =
        .ok (5 * 10 ^ 38) ∧
      getHealthFactor borrowedMachine.world.env (repaidWorld 2).engine 8 = .ok (2 ^ 96 - 1) ∧
      2 ^ 96 - 1 < 5 * 10 ^ 38 ∧ ¬ NonIncreasing (2000 * 10 ^ 18) := by
  refine ⟨sampleWorld_deployed, Run.of_foldlM (fun _ _ _ h => h) (Option.some_get _).symm, rfl,
    by decide +kernel, by decide +kernel, by decide, fun hanti => ?_⟩
  have hseam := nonIncreasing_iff.mp hanti ⟨by decide, by decide⟩
  exact absurd hseam (by decide)

end AdvFoundry.Drs
