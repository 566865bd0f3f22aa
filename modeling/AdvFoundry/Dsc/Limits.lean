import AdvFoundry.Dsc.Liquidation
import AdvFoundry.Dsc.Payout

/-!
# Calls that go through

From every reachable world: when a borrower may borrow and withdraw, and that
the two ways out of a debt are open. A call passes when none of its checks, its
subtractions and its transfers fails; the transfers of the engine are covered by
custody, the guard is free between calls, and whoever owes stablecoin owes it
to an engine that owns the coin (`Ready`).

Results:
1. `borrowing_limit`: `mintDSC` and `reedemCollateral` pass exactly when the
   position stays worth twice its debt.
2. `borrower_can_leave`: a borrower who holds the debt in stablecoin can pay it
   back and take out all collateral of a token in one call.
3. `covered_position_cleared`: a liquidatable position that holds 110% of its
   debt in one token can be liquidated whole.
-/

namespace AdvFoundry.Dsc

open Function

/-- No call is in progress, and an engine with debtors owns the coin. -/
structure Ready (this : Address) (w : World) : Prop where
  free : w.engine.entered = false
  owner : ∀ u, 0 < w.engine.dscMinted u → w.dscOwner = this ∧ this ≠ 0

namespace LimitLemmas

variable {c : Ctx} {w w' w₀ : World} {this : Address} {msgs : List Msg}

/-- A mint and a burn are calls of the coin's owner; the other moves change
neither a debt nor the owner. -/
theorem ready_move (h : Move c w w') (hw : Ready c.this w) : Ready c.this w' := by
  cases h with
  | deposit _ | reedem _ => exact ⟨hw.free, hw.owner⟩
  | mint hcan => exact ⟨hw.free, fun _ _ => ⟨hcan.owner, hcan.this_ne⟩⟩
  | burn hcan => exact ⟨hw.free, fun _ _ => ⟨hcan.owner, hcan.this_ne⟩⟩

/-- Only the owner can give the coin away, and the engine does not. -/
theorem ready_step {m : Msg} (h : Step this w m w') (hw : Ready this w) : Ready this w' := by
  obtain ⟨hne, h⟩ := h
  rcases m with ⟨sender, env, call⟩
  cases call with
  | engine op =>
    exact engine_invariant (I := Ready this) (fun _ _ hmove hready => ready_move hmove hready) h hw
  | token t op =>
    obtain ⟨tk, -, rfl⟩ := callToken_ok.mp h
    exact ⟨hw.free, hw.owner⟩
  | issue t a v | retire t v =>
    simp only [Call.exec, Tx.bind_ok, notCoin_ok, callToken_ok] at h
    obtain ⟨_, w, ⟨-, rfl⟩, _, -, rfl⟩ := h
    exact ⟨hw.free, hw.owner⟩
  | coin op =>
    obtain ⟨d, hd, rfl⟩ := callCoin_ok.mp h
    refine ⟨hw.free, fun u hu => ?_⟩
    obtain ⟨howner, -⟩ := hw.owner u hu
    exact absurd ((CoinOp.exec_owner hd).symm.trans howner) hne

theorem ready_run (h₀ : Deployed this w₀) (hrun : Run (Step this) w₀ msgs w) : Ready this w := by
  obtain ⟨tokens, feeds, hbuilt⟩ := h₀.built
  obtain ⟨-, hminted, -, -, hfree⟩ := constructor_ok hbuilt
  have hstart : Ready this w₀ := by
    refine ⟨hfree, fun u hu => ?_⟩
    rw [hminted u] at hu
    cases hu
  exact Run.invariant (I := Ready this) (C := fun _ => True)
    (fun _ _ _ _ hI hst => ready_step hst hI) hrun (fun _ _ => trivial) hstart

/-- What is recorded for one user, the engine holds. -/
theorem held_run {u t : Address} (h₀ : Deployed this w₀) (hrun : Run (Step this) w₀ msgs w) :
    w.engine.collateralToUser u t ≤ (w.tokens t).balances this :=
  Nat.le_trans (le_sum (fun u => w.engine.collateralToUser u t) u)
    (custody_run h₀ hrun (t := t)).covers

/-- At a computable value the check is the integer comparison. -/
theorem check_iff {env : Env} {e : DSCEngine} {u : Address} {value : Nat}
    (hvalue : getAccountTotalCollateralInUSD env e u = .ok value)
    (hscaled : value * LIQUIDATION_THRESHOLD < uintSize)
    (hadjusted : value * LIQUIDATION_THRESHOLD / LIQUIDATION_PRECISION * PRECISION < uintSize) :
    _checkHealthFactorAndRevert env e u = .ok () ↔ 2 * e.dscMinted u ≤ value := by
  have hhealth := getHealthFactor_returns hvalue
    (_calculateHealthFactor_returns (e.dscMinted u) hscaled hadjusted)
  rw [_checkHealthFactorAndRevert_ok, ← min_le_healthFactor_iff]
  constructor
  · rintro ⟨hf, hhf, hmin⟩
    rw [hhealth] at hhf
    cases hhf
    exact hmin
  · intro hmin
    exact ⟨_, hhealth, hmin⟩

/-- Taking out collateral leaves a position that has a value. -/
theorem reduced_value {env : Env} {u t : Address} {left value : Nat}
    (hvalue : getAccountTotalCollateralInUSD env w.engine u = .ok value)
    (hleft : left ≤ w.engine.collateralToUser u t) :
    ∃ value', getAccountTotalCollateralInUSD env (w.setCollateral u t left).engine u = .ok value' ∧
      value' ≤ value := by
  refine getAccountTotalCollateralInUSD_less hvalue rfl rfl fun t' => ?_
  rcases eq_or_ne t' t with rfl | ht
  · simpa using hleft
  · simp [ht]

/-- A user whose whole debt is settled has the best health factor: it only takes
the value of what is left. -/
theorem settled_health {env : Env} {e : DSCEngine} {u t : Address} {total hf : Nat}
    (h : getHealthFactor env e u = .ok hf) :
    getHealthFactor env (settledEngine e u t (e.dscMinted u) total) u = .ok uintMax := by
  obtain ⟨value, hvalue⟩ := getHealthFactor_total h
  have hless : ∀ t', (settledEngine e u t (e.dscMinted u) total).collateralToUser u t' ≤
      e.collateralToUser u t' := by
    intro t'
    rcases eq_or_ne t' t with rfl | ht
    · simp [settledEngine]
    · simp [settledEngine, ht]
  obtain ⟨value', hvalue', -⟩ : ∃ value', getAccountTotalCollateralInUSD env
      (settledEngine e u t (e.dscMinted u) total) u = .ok value' ∧ value' ≤ value :=
    getAccountTotalCollateralInUSD_less hvalue rfl rfl hless
  exact getHealthFactor_no_debt (by simp [settledEngine]) hvalue'

end LimitLemmas

open LimitLemmas

/-! ## 1. The borrowing limit -/

/-- With `C` the value of the caller's collateral, and when no product and not
the supply overflows: `mintDSC` passes exactly when the position with the new
debt is worth twice it, and `reedemCollateral` exactly when the amount is
recorded and what is left is. -/
theorem borrowing_limit {c : Ctx} {w₀ w : World} {msgs : List Msg} {C : Nat}
    (h₀ : Deployed c.this w₀) (hrun : Run (Step c.this) w₀ msgs w)
    (howner : w.dscOwner = c.this) (hthis : c.this ≠ 0) (hsender : c.sender ≠ 0)
    (hC : getAccountTotalCollateralInUSD c.env w.engine c.sender = .ok C)
    (hscaled : C * LIQUIDATION_THRESHOLD < uintSize)
    (hadjusted : C * LIQUIDATION_THRESHOLD / LIQUIDATION_PRECISION * PRECISION < uintSize) :
    (∀ x, (w.tokens w.engine.dsc).totalSupply + x < uintSize →
      ((∃ w', mintDSC c x w = .ok ((), w')) ↔
        0 < x ∧ 2 * (w.engine.dscMinted c.sender + x) ≤ C)) ∧
    ∀ t a, ∃ C', getAccountTotalCollateralInUSD c.env
        (w.setCollateral c.sender t (w.engine.collateralToUser c.sender t - a)).engine c.sender =
          .ok C' ∧
      ((∃ w', reedemCollateral c t a w = .ok ((), w')) ↔
        0 < a ∧ a ≤ w.engine.collateralToUser c.sender t ∧
          (w.engine.dscMinted c.sender = 0 ∨ 2 * w.engine.dscMinted c.sender ≤ C')) := by
  constructor
  · intro x hsupply
    have hcheck : _checkHealthFactorAndRevert c.env
        (w.setMinted c.sender (w.engine.dscMinted c.sender + x)).engine c.sender = .ok () ↔
          2 * (w.engine.dscMinted c.sender + x) ≤ C := by
      have hiff := check_iff (e := (w.setMinted c.sender (w.engine.dscMinted c.sender + x)).engine)
        hC hscaled hadjusted
      simpa using hiff
    constructor
    · rintro ⟨w', h⟩
      obtain ⟨hcan, -⟩ := mintDSC_ok.mp h
      exact ⟨hcan.pos, hcheck.mp hcan.healthy⟩
    · rintro ⟨hpos, hlimit⟩
      have hfits : w.engine.dscMinted c.sender + x < uintSize := by
        simp only [LIQUIDATION_THRESHOLD] at hscaled
        omega
      exact ⟨_, mintDSC_ok.mpr ⟨⟨hpos, hfits, hcheck.mpr hlimit, howner, hsender, hthis⟩, hsupply, rfl⟩⟩
  · intro t a
    obtain ⟨C', hC', hle⟩ := reduced_value hC (Nat.sub_le (w.engine.collateralToUser c.sender t) a)
    refine ⟨C', hC', ?_⟩
    have hscaled' : C' * LIQUIDATION_THRESHOLD ≤ C * LIQUIDATION_THRESHOLD :=
      Nat.mul_le_mul_right _ hle
    have hadjusted' : C' * LIQUIDATION_THRESHOLD / LIQUIDATION_PRECISION * PRECISION ≤
        C * LIQUIDATION_THRESHOLD / LIQUIDATION_PRECISION * PRECISION :=
      Nat.mul_le_mul_right _ (Nat.div_le_div_right hscaled')
    have hcheck := check_iff hC' (Nat.lt_of_le_of_lt hscaled' hscaled)
      (Nat.lt_of_le_of_lt hadjusted' hadjusted)
    simp only [World.setCollateral_engine] at hcheck
    -- without debt the comparison holds too, so the two alternatives are one
    have hdebt : w.engine.dscMinted c.sender = 0 ∨ 2 * w.engine.dscMinted c.sender ≤ C' ↔
        2 * w.engine.dscMinted c.sender ≤ C' := by omega
    rw [hdebt, ← hcheck]
    constructor
    · rintro ⟨w', h⟩
      obtain ⟨hpos, -, hmove, hhealthy⟩ := reedemCollateral_ok.mp h
      obtain ⟨hrec, -, -, _, rfl⟩ := _reedemCollateral_ok.mp hmove
      exact ⟨hpos, hrec, hhealthy⟩
    · rintro ⟨hpos, hrec, hhealthy⟩
      have hheld := Nat.le_trans hrec (held_run h₀ hrun)
      exact ⟨_, reedemCollateral_ok.mpr ⟨hpos, (ready_run h₀ hrun).free,
        _reedemCollateral_ok.mpr ⟨hrec, hthis, hsender, hheld, rfl⟩, hhealthy⟩⟩

/-- Three thousand dollars, in the feed's eight decimals. -/
def price3000 : Int256 := ⟨3000 * 10 ^ 8, by decide, by decide⟩

/-- The borrower of a thousand dollars against one token, at three thousand
dollars: five hundred more may be borrowed. -/
theorem borrowing_limit_five_hundred :
    ∃ w, Run (Step 1) sampleWorld (burnFromRun.take 2) w ∧ w.engine.dscMinted 5 = 10 ^ 21 ∧
      ∃ w', mintDSC (borrowerCtx price3000) (5 * 10 ^ 20) w = .ok ((), w') := by
  have hrun : Run (Step 1) sampleWorld (burnFromRun.take 2) _ :=
    Run.of_foldlM (fun _ _ _ => step_of_next) (Option.some_get (by decide +kernel)).symm
  have hlimit := @borrowing_limit (borrowerCtx price3000) _ _ _ (3000 * 10 ^ 18)
    sampleWorld_deployed hrun (by decide +kernel) (by decide) (by decide) (by decide +kernel)
    (by decide) (by decide)
  exact ⟨_, hrun, by decide +kernel,
    (hlimit.1 (5 * 10 ^ 20) (by decide +kernel)).mpr (by decide +kernel)⟩

/-! ## 2. Paying back -/

/-- A borrower who holds and approved the whole debt in stablecoin pays it back
and takes out all collateral of a token in one call, healthy or not. -/
theorem borrower_can_leave {c : Ctx} {w₀ w : World} {msgs : List Msg} {t : Address} {hf : Nat}
    (h₀ : Deployed c.this w₀) (hrun : Run (Step c.this) w₀ msgs w) (hsender : c.sender ≠ 0)
    (hhealth : getHealthFactor c.env w.engine c.sender = .ok hf)
    (hdebt : 0 < w.engine.dscMinted c.sender)
    (hfunds : w.engine.dscMinted c.sender ≤ (w.tokens w.engine.dsc).balances c.sender)
    (hallowed : w.engine.dscMinted c.sender ≤ (w.tokens w.engine.dsc).allowances c.sender c.this)
    (hcollateral : 0 < w.engine.collateralToUser c.sender t) (hcoin : t ≠ w.engine.dsc) :
    ∃ w', reedemCollateralAndBurnDSC c t (w.engine.collateralToUser c.sender t)
        (w.engine.dscMinted c.sender) w = .ok ((), w') ∧
      w'.engine.dscMinted c.sender = 0 ∧ w'.engine.collateralToUser c.sender t = 0 ∧
      (w'.tokens t).balances c.sender =
        (w.tokens t).balances c.sender + w.engine.collateralToUser c.sender t ∧
      (w'.tokens w.engine.dsc).totalSupply + w.engine.dscMinted c.sender =
        (w.tokens w.engine.dsc).totalSupply ∧
      (∀ u t', ¬ (u = c.sender ∧ t' = t) →
        w'.engine.collateralToUser u t' = w.engine.collateralToUser u t') ∧
      ∀ u, u ≠ c.sender → w'.engine.dscMinted u = w.engine.dscMinted u := by
  have hready := ready_run h₀ hrun
  obtain ⟨howner, hthis⟩ := hready.owner c.sender hdebt
  have hfunds' : w.engine.dscMinted c.sender ≤ ((w.tokens w.engine.dsc).spend c.sender c.this
      (w.engine.dscMinted c.sender)).balances c.sender := by simpa using hfunds
  have hburn : CanBurn c w (w.engine.dscMinted c.sender) c.sender c.sender :=
    ⟨Nat.le_refl _, fun _ => ⟨hallowed, hsender, hthis⟩, hsender, hthis, howner, hdebt⟩
  have hheld : w.engine.collateralToUser c.sender t ≤
      ((burnedWorld w c.this c.sender c.sender (w.engine.dscMinted c.sender) hfunds').tokens
        t).balances c.this := by
    rw [LiquidationLemmas.burned_held]
    exact held_run h₀ hrun
  -- without debt the checks only need the value of what is left
  have hcheck : _checkHealthFactorAndRevert c.env (reedemedWorld (burnedWorld w c.this c.sender
      c.sender (w.engine.dscMinted c.sender) hfunds') c.this c.sender c.sender t
      (w.engine.collateralToUser c.sender t) hheld).engine c.sender = .ok () := by
    rw [LiquidationLemmas.settled_engine]
    exact _checkHealthFactorAndRevert_ok.mpr ⟨uintMax, settled_health hhealth, by decide⟩
  refine ⟨_, reedemCollateralAndBurnDSC_ok.mpr ⟨_,
    burnDSC_ok.mpr ⟨hready.free, _burnDSC_ok.mpr ⟨hburn, hfunds', rfl⟩⟩,
    reedemCollateral_ok.mpr ⟨hcollateral, hready.free,
      _reedemCollateral_ok.mpr ⟨Nat.le_refl _, hthis, hsender, hheld, rfl⟩, hcheck⟩⟩, ?_⟩
  rw [LiquidationLemmas.settled_engine]
  refine ⟨by simp [settledEngine], by simp [settledEngine], ?_, ?_, ?_, ?_⟩
  · simp [reedemedWorld, burnedWorld, hcoin, debit_of_ne c.sender_ne]
  · have hexist := ERC20.balance_le_supply (w.tokens w.engine.dsc) c.sender
    simp [reedemedWorld, burnedWorld, Ne.symm hcoin]
    omega
  · intro u t' hother
    rcases eq_or_ne u c.sender with rfl | hu
    · have ht : t' ≠ t := fun ht => hother ⟨rfl, ht⟩
      simp [settledEngine, ht]
    · simp [settledEngine, hu]
  · intro u hu
    simp [settledEngine, hu]

/-- The borrower at the limit pays back after the price fell to sixteen hundred
dollars, below the minimum health factor. -/
def leavingRun : List Msg :=
  burnFromRun.take 2 ++ [⟨5, sampleEnv price1600, .token 2 (.approve 1 (10 ^ 21))⟩]

theorem borrower_can_leave_unhealthy :
    ∃ w w', Run (Step 1) sampleWorld leavingRun w ∧
      getHealthFactor (sampleEnv price1600) w.engine 5 = .ok (8 * 10 ^ 17) ∧
      reedemCollateralAndBurnDSC (borrowerCtx price1600) 3 (w.engine.collateralToUser 5 3)
        (w.engine.dscMinted 5) w = .ok ((), w') ∧
      w'.engine.dscMinted 5 = 0 := by
  have hrun : Run (Step 1) sampleWorld leavingRun _ :=
    Run.of_foldlM (fun _ _ _ => step_of_next) (Option.some_get (by decide +kernel)).symm
  obtain ⟨w', hcall, hpaid, -⟩ := @borrower_can_leave (borrowerCtx price1600) _ _ _ 3 (8 * 10 ^ 17)
    sampleWorld_deployed hrun (by decide) (by decide +kernel) (by decide +kernel) (by decide +kernel)
    (by decide +kernel) (by decide +kernel) (by decide +kernel)
  exact ⟨_, w', hrun, by decide +kernel, hcall, hpaid⟩

/-! ## 3. Liquidating the whole debt -/

namespace LimitLemmas

open PayoutLemmas

/-- What 110% cover in one token gives: the seizure is recorded, and none of the
products of `liquidate` overflows. -/
theorem seizes_of_cover {c : Ctx} {w : World} {u t : Address} {debt value : Nat} (hdebt : 0 < debt)
    (hvalue : getValueInUSD c.env w.engine t (w.engine.collateralToUser u t) = .ok value)
    (hcover : 11 * debt ≤ 10 * value) :
    Seizes c w t debt (seized (quoted c.env w.engine t) debt) ∧
      seized (quoted c.env w.engine t) debt ≤ w.engine.collateralToUser u t := by
  have hworth := getValueInUSD_ok hvalue
  simp only [getValueInUSD, Result.bind_ok, mulU_ok] at hvalue
  obtain ⟨round, hround, _, ⟨hprice, rfl⟩, _, ⟨hfits, rfl⟩, -⟩ := hvalue
  have hquoted : round.answer.toUint256 = quoted c.env w.engine t := by simp [quoted, hround]
  rw [hquoted] at hprice hfits
  -- the value is a floor, so the collateral itself covers 110% of the debt
  have hexact : value * PRECISION ≤
      quoted c.env w.engine t * ADDITIONAL_FEED_PRECISION * w.engine.collateralToUser u t := by
    rw [hworth]
    exact Nat.div_mul_le_self _ _
  have hpriced : 0 < quoted c.env w.engine t * ADDITIONAL_FEED_PRECISION := by
    rcases Nat.eq_zero_or_pos (quoted c.env w.engine t * ADDITIONAL_FEED_PRECISION) with h0 | hpos
    · rw [h0, Nat.zero_mul] at hexact
      simp only [PRECISION] at hexact
      omega
    · exact hpos
  have hrec : seized (quoted c.env w.engine t) debt ≤ w.engine.collateralToUser u t := by
    have hpaid := seized_value_le (quoted c.env w.engine t) debt
    have hle : quoted c.env w.engine t * ADDITIONAL_FEED_PRECISION *
        seized (quoted c.env w.engine t) debt ≤
          quoted c.env w.engine t * ADDITIONAL_FEED_PRECISION * w.engine.collateralToUser u t := by
      have hscaled : 11 * debt * PRECISION ≤ 10 * value * PRECISION :=
        Nat.mul_le_mul_right _ hcover
      simp only [PRECISION] at hpaid hscaled hexact
      omega
    exact Nat.le_of_mul_le_mul_left hle hpriced
  -- every product is below the one the value was computed with
  have hten : 10 ≤ quoted c.env w.engine t * ADDITIONAL_FEED_PRECISION := by
    simp only [ADDITIONAL_FEED_PRECISION] at hpriced ⊢
    omega
  have hlarge : 10 * w.engine.collateralToUser u t < uintSize :=
    Nat.lt_of_le_of_lt (Nat.mul_le_mul_right _ hten) hfits
  have hconverted : collateralFor (quoted c.env w.engine t) debt ≤
      seized (quoted c.env w.engine t) debt := by
    rw [seized_eq]
    exact Nat.le_add_right _ _
  refine ⟨⟨⟨round, hround⟩, Nat.ne_of_gt hpriced, hprice, ?_, ?_, ?_, rfl⟩, hrec⟩
  · have hless : debt * PRECISION ≤ value * PRECISION := Nat.mul_le_mul_right _ (by omega)
    exact Nat.lt_of_le_of_lt (Nat.le_trans hless hexact) hfits
  · simp only [LIQUIDATION_BONUS]
    omega
  · omega

end LimitLemmas

/-- A user at or below the minimum health factor, with 110% of the debt in one
token, can be liquidated whole by anyone who holds and approved the debt in
stablecoin. -/
theorem covered_position_cleared {c : Ctx} {w₀ w : World} {msgs : List Msg} {u t : Address}
    {hf value : Nat} (h₀ : Deployed c.this w₀) (hrun : Run (Step c.this) w₀ msgs w)
    (hsender : c.sender ≠ 0) (hdebt : 0 < w.engine.dscMinted u)
    (hhealth : getHealthFactor c.env w.engine u = .ok hf) (hlow : hf ≤ MIN_HEALTH_FACTOR)
    (hvalue : getValueInUSD c.env w.engine t (w.engine.collateralToUser u t) = .ok value)
    (hcover : 11 * w.engine.dscMinted u ≤ 10 * value)
    (hfunds : w.engine.dscMinted u ≤ (w.tokens w.engine.dsc).balances c.sender)
    (hallowed : w.engine.dscMinted u ≤ (w.tokens w.engine.dsc).allowances c.sender c.this) :
    ∃ w', liquidate c u t (w.engine.dscMinted u) w = .ok ((), w') ∧
      w'.engine.dscMinted u = 0 ∧
      w'.engine.collateralToUser u t +
        seized (quoted c.env w.engine t) (w.engine.dscMinted u) = w.engine.collateralToUser u t ∧
      (∀ t', t' ≠ t → w'.engine.collateralToUser u t' = w.engine.collateralToUser u t') ∧
      (w'.tokens t).balances c.sender + (if t = w.engine.dsc then w.engine.dscMinted u else 0) =
        (w.tokens t).balances c.sender +
          seized (quoted c.env w.engine t) (w.engine.dscMinted u) := by
  obtain ⟨howner, hthis⟩ := (ready_run h₀ hrun).owner u hdebt
  obtain ⟨hseizes, hrec⟩ := seizes_of_cover hdebt hvalue hcover
  have hsettle : CanSettle c w u t (w.engine.dscMinted u) hf :=
    { pos := hdebt
      owed := Nat.le_refl _
      seizes := hseizes
      burn := ⟨Nat.le_refl _, fun _ => ⟨hallowed, hsender, hthis⟩, hsender, hthis, howner, hdebt⟩
      funds := hfunds
      recorded := hrec
      held := Nat.le_trans hrec (held_run h₀ hrun)
      raised := ⟨uintMax, settled_health hhealth, Nat.lt_of_le_of_lt hlow (by decide)⟩ }
  obtain ⟨w', hcall⟩ := liquidate_returns_iff.mpr ⟨hf, hhealth, hlow, hsettle⟩
  have heffect := liquidation_effect hcall
  have hfalls := heffect.debt_falls
  have hwallet := heffect.sender_wallet t
  rw [if_pos rfl] at hwallet
  exact ⟨w', hcall, by omega, heffect.collateral_falls, heffect.other_collateral, hwallet⟩

/-- The borrower at the limit hands its stablecoin to the account `6`, which
approves the engine. -/
def clearingRun : List Msg :=
  burnFromRun.take 2 ++
    [⟨5, sampleEnv price1600, .token 2 (.transfer 6 (10 ^ 21))⟩,
     ⟨6, sampleEnv price1600, .token 2 (.approve 1 (10 ^ 21))⟩]

/-- At sixteen hundred dollars the account `6` clears the borrower's debt. -/
theorem covered_position_cleared_borrower :
    ∃ w w', Run (Step 1) sampleWorld clearingRun w ∧
      liquidate (liquidatorCtx price1600) 5 3 (w.engine.dscMinted 5) w = .ok ((), w') ∧
      w'.engine.dscMinted 5 = 0 := by
  have hrun : Run (Step 1) sampleWorld clearingRun _ :=
    Run.of_foldlM (fun _ _ _ => step_of_next) (Option.some_get (by decide +kernel)).symm
  obtain ⟨w', hcall, hcleared, -⟩ := @covered_position_cleared (liquidatorCtx price1600) _ _ _ 5 3
    (8 * 10 ^ 17) (1600 * 10 ^ 18) sampleWorld_deployed hrun (by decide) (by decide +kernel)
    (by decide +kernel) (by decide) (by decide +kernel) (by decide +kernel) (by decide +kernel)
    (by decide +kernel)
  exact ⟨_, w', hrun, hcall, hcleared⟩

end AdvFoundry.Dsc
