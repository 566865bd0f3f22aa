import AdvFoundry.Dsc.System

/-!
# What one engine call can do to a position

`position_cases` is the whole story: after a call of anyone, the position of a
user is at least as good as before, or the user is the caller and has just
passed the health check, or the user was liquidated and the health factor rose.

Results:
1. `health_not_worsened`: at unchanged prices no call makes a user below the
   minimum worse, or takes a user at or above it below it.
2. `withdrawal_healthy_or_self_liquidation`: a caller whose own collateral fell
   is healthy afterwards, or has liquidated itself and is healthier than before.
   `self_liquidation_unhealthy`: the second case does happen below the minimum.
-/

namespace AdvFoundry.Dsc

open Function

/-- The position of `u` is at least as good in `e'` as in `e`. -/
def Improves (e e' : DSCEngine) (u : Address) : Prop :=
  (∀ t, e.collateralToUser u t ≤ e'.collateralToUser u t) ∧ e'.dscMinted u ≤ e.dscMinted u

/-- The records of `u`. -/
def SameRecord (e e' : DSCEngine) (u : Address) : Prop :=
  (∀ t, e'.collateralToUser u t = e.collateralToUser u t) ∧ e'.dscMinted u = e.dscMinted u

/-- The parts of the engine's storage that no call writes. -/
structure SameConfig (e e' : DSCEngine) : Prop where
  feeds : e'.priceFeeds = e.priceFeeds
  tokens : e'.collateralTokens = e.collateralTokens
  dsc : e'.dsc = e.dsc

section

variable {u : Address}

theorem Improves.trans {e e₁ e₂ : DSCEngine} (h : Improves e e₁ u) (h' : Improves e₁ e₂ u) :
    Improves e e₂ u :=
  ⟨fun t => Nat.le_trans (h.1 t) (h'.1 t), Nat.le_trans h'.2 h.2⟩

theorem SameRecord.improves {e e' : DSCEngine} (h : SameRecord e e' u) : Improves e e' u :=
  ⟨fun t => Nat.le_of_eq (h.1 t).symm, Nat.le_of_eq h.2⟩

theorem SameRecord.trans {e e₁ e₂ : DSCEngine} (h : SameRecord e e₁ u) (h' : SameRecord e₁ e₂ u) :
    SameRecord e e₂ u :=
  ⟨fun t => (h'.1 t).trans (h.1 t), h'.2.trans h.2⟩

theorem SameConfig.trans {e e₁ e₂ : DSCEngine} (h : SameConfig e e₁) (h' : SameConfig e₁ e₂) :
    SameConfig e e₂ :=
  ⟨h'.feeds.trans h.feeds, h'.tokens.trans h.tokens, h'.dsc.trans h.dsc⟩

end

namespace PositionLemmas

variable {c : Ctx} {w w' w₁ : World} {u : Address} {x : Unit}

theorem record_deposit {token : Address} {amount : Nat} (hu : u ≠ c.sender)
    (h : depositCollateral c token amount w = .ok (x, w')) : SameRecord w.engine w'.engine u := by
  obtain ⟨-, _, rfl⟩ := depositCollateral_ok.mp h
  exact ⟨fun t => by simp [depositedWorld, hu], rfl⟩

theorem record_mint {amount : Nat} (hu : u ≠ c.sender) (h : mintDSC c amount w = .ok (x, w')) :
    SameRecord w.engine w'.engine u := by
  obtain ⟨-, _, rfl⟩ := mintDSC_ok.mp h
  exact ⟨fun _ => rfl, by simp [mintedWorld, hu]⟩

theorem record_burn {debtor payer : Address} {amount : Nat} (hu : u ≠ debtor)
    (h : _burnDSC c amount debtor payer w = .ok (x, w')) : SameRecord w.engine w'.engine u := by
  obtain ⟨-, _, rfl⟩ := _burnDSC_ok.mp h
  exact ⟨fun _ => rfl, by simp [burnedWorld, hu]⟩

theorem record_reedem {src dst token : Address} {amount : Nat} (hu : u ≠ src)
    (h : _reedemCollateral c src dst token amount w = .ok (x, w')) :
    SameRecord w.engine w'.engine u := by
  obtain ⟨-, -, -, _, rfl⟩ := _reedemCollateral_ok.mp h
  exact ⟨fun t => by simp [reedemedWorld, hu], rfl⟩

theorem improves_deposit {token : Address} {amount : Nat}
    (h : depositCollateral c token amount w = .ok (x, w')) : Improves w.engine w'.engine u := by
  obtain ⟨-, _, rfl⟩ := depositCollateral_ok.mp h
  refine ⟨fun t => ?_, Nat.le_refl _⟩
  by_cases hu : u = c.sender
  · subst hu
    by_cases ht : t = token
    · subst ht; simp [depositedWorld]
    · simp [depositedWorld, ht]
  · simp [depositedWorld, hu]

theorem improves_burn {debtor payer : Address} {amount : Nat}
    (h : _burnDSC c amount debtor payer w = .ok (x, w')) : Improves w.engine w'.engine u := by
  obtain ⟨-, _, rfl⟩ := _burnDSC_ok.mp h
  refine ⟨fun _ => Nat.le_refl _, ?_⟩
  by_cases hu : u = debtor
  · subst hu; simp [burnedWorld]
  · simp [burnedWorld, hu]

/-- The check at the end of `mintDSC` is made on the debt it leaves. -/
theorem check_mint {amount : Nat} (h : mintDSC c amount w = .ok (x, w')) :
    _checkHealthFactorAndRevert c.env w'.engine c.sender = .ok () := by
  obtain ⟨hcan, _, rfl⟩ := mintDSC_ok.mp h
  exact hcan.healthy

theorem config_move (h : Move c w w') : SameConfig w.engine w'.engine := by
  cases h <;> exact ⟨rfl, rfl, rfl⟩

end PositionLemmas

open PositionLemmas

/-- No engine call changes the configuration. -/
theorem config_engine {c : Ctx} {op : EngineOp} {w w' : World} {x : Unit}
    (h : op.exec c w = .ok (x, w')) : SameConfig w.engine w'.engine := by
  refine engine_invariant (I := fun w' => SameConfig w.engine w'.engine) ?_ h ⟨rfl, rfl, rfl⟩
  intro w₁ w₂ hmove hsame
  exact hsame.trans (config_move hmove)

/-- What one engine call can do to the position of a user. -/
theorem position_cases {c : Ctx} {op : EngineOp} {w w' : World} {x : Unit}
    (h : op.exec c w = .ok (x, w')) (u : Address) :
    Improves w.engine w'.engine u ∨
    (u = c.sender ∧ _checkHealthFactorAndRevert c.env w'.engine u = .ok ()) ∨
    (∃ t d start final, op = .liquidate u t d ∧
      getHealthFactor c.env w.engine u = .ok start ∧ start ≤ MIN_HEALTH_FACTOR ∧
      getHealthFactor c.env w'.engine u = .ok final ∧ start < final) := by
  cases op with
  | depositCollateral t a => exact .inl (improves_deposit h)
  | mintDSC a =>
    by_cases hu : u = c.sender
    · exact .inr (.inl ⟨hu, hu ▸ check_mint h⟩)
    · exact .inl (record_mint hu h).improves
  | depositCollateralAndMintDSC t a m =>
    obtain ⟨w₁, hd, hm⟩ := depositCollateralAndMintDSC_ok.mp h
    by_cases hu : u = c.sender
    · exact .inr (.inl ⟨hu, hu ▸ check_mint hm⟩)
    · exact .inl ((improves_deposit hd).trans (record_mint hu hm).improves)
  | reedemCollateral t a =>
    obtain ⟨-, -, hr, hcheck⟩ := reedemCollateral_ok.mp h
    by_cases hu : u = c.sender
    · exact .inr (.inl ⟨hu, hu ▸ hcheck⟩)
    · exact .inl (record_reedem hu hr).improves
  | reedemCollateralAndBurnDSC t a b =>
    obtain ⟨w₁, hb, hr⟩ := reedemCollateralAndBurnDSC_ok.mp h
    obtain ⟨-, -, hr, hcheck⟩ := reedemCollateral_ok.mp hr
    by_cases hu : u = c.sender
    · exact .inr (.inl ⟨hu, hu ▸ hcheck⟩)
    · exact .inl ((improves_burn (burnDSC_ok.mp hb).2).trans (record_reedem hu hr).improves)
  | burnDSC a => exact .inl (improves_burn (burnDSC_ok.mp h).2)
  | liquidate b t d =>
    obtain ⟨-, -, start, hstart, hmin, _, -, w₁, hb, hr, final, hfinal, hlt⟩ := liquidate_ok.mp h
    by_cases hu : u = b
    · subst hu
      exact .inr (.inr ⟨t, d, start, final, rfl, hstart, hmin, hfinal, hlt⟩)
    · exact .inl ((improves_burn hb).trans (record_reedem hu hr).improves)

/-- The price of a token depends on the feeds only. -/
theorem quoted_congr {env : Env} {e e' : DSCEngine} (h : e'.priceFeeds = e.priceFeeds) :
    quoted env e' = quoted env e := by
  funext t
  simp [quoted, h]

/-! ## 1. Only the oracle can hurt a position -/

/-- A better position has a health factor at least as high. -/
theorem healthFactor_improves {env : Env} {e e' : DSCEngine} {u : Address} {before after : Nat}
    (hconfig : SameConfig e e') (himp : Improves e e' u)
    (hbefore : getHealthFactor env e u = .ok before)
    (hafter : getHealthFactor env e' u = .ok after) : before ≤ after := by
  obtain ⟨rfl, hmax⟩ := getHealthFactor_ok hbefore
  obtain ⟨rfl, -⟩ := getHealthFactor_ok hafter
  rw [quoted_congr hconfig.feeds]
  calc healthFactor (e.dscMinted u) (accountValue (quoted env e) e u)
      ≤ healthFactor (e'.dscMinted u) (accountValue (quoted env e) e u) :=
        healthFactor_anti himp.2 hmax
    _ ≤ healthFactor (e'.dscMinted u) (accountValue (quoted env e) e' u) :=
        healthFactor_mono (accountValue_mono hconfig.tokens himp.1)

/-- At the prices of the call, no engine call of anyone takes a user's health
factor below both the minimum and what it was. -/
theorem health_not_worsened {c : Ctx} {op : EngineOp} {w w' : World} {u : Address}
    {before after : Nat} (hop : op.exec c w = .ok ((), w'))
    (hbefore : getHealthFactor c.env w.engine u = .ok before)
    (hafter : getHealthFactor c.env w'.engine u = .ok after) :
    min MIN_HEALTH_FACTOR before ≤ after := by
  rcases position_cases hop u with himp | ⟨-, hcheck⟩ | ⟨t, d, start, final, -, hstart, -, hfinal, hlt⟩
  · exact Nat.le_trans (Nat.min_le_right _ _)
      (healthFactor_improves (config_engine hop) himp hbefore hafter)
  · obtain ⟨hf, hhf, hmin⟩ := _checkHealthFactorAndRevert_ok.mp hcheck
    rw [hhf] at hafter
    cases hafter
    exact Nat.le_trans (Nat.min_le_left _ _) hmin
  · rw [hstart] at hbefore
    rw [hfinal] at hafter
    cases hbefore
    cases hafter
    exact Nat.le_trans (Nat.min_le_right _ _) (Nat.le_of_lt hlt)

/-! ### A small deployment

Engine at `1`, stablecoin at `2`, one collateral token at `3` with its feed at
`4`; the borrower `5` holds five whole tokens. -/

/-- A block in which the feed at `4` answers `price`. -/
def sampleEnv (price : Int256) : Env where
  timestamp := 1000
  latestRoundData := fun feed => if feed = 4 then some ⟨1, price, 1000, 1000, 1⟩ else none
  no_feed_at_zero := if_neg (by decide)

theorem sampleEnv_fresh (price : Int256) :
    getLatestRoundDataAndRevertIfStale (sampleEnv price) 4 = .ok ⟨1, price, 1000, 1000, 1⟩ := by
  simp only [getLatestRoundDataAndRevertIfStale, Result.bind_ok, Result.ofOption_ok,
    Result.revertIf_ok, subU_ok, Result.pure_ok]
  exact ⟨_, by simp [sampleEnv], (), by simp, 0, by simp [sampleEnv], (), by simp, rfl⟩

/-- A call of the borrower. -/
def borrowerCtx (price : Int256) : Ctx := ⟨1, 5, sampleEnv price, by decide⟩

def sampleWorld : World where
  engine :=
    { priceFeeds := Function.update (fun _ => 0) 3 4
      collateralToUser := fun _ _ => 0
      dscMinted := fun _ => 0
      dsc := 2
      collateralTokens := [3]
      entered := false }
  tokens := Function.update (fun _ => ERC20.empty) 3
    (ERC20.empty.issue 5 (5 * 10 ^ 18) (by decide))
  dscOwner := 1

theorem sampleWorld_deployed : Deployed 1 sampleWorld := by
  refine ⟨⟨[3], [4], rfl⟩, fun t spender => ?_⟩
  by_cases ht : t = 3
  · subst ht
    rfl
  · simp [sampleWorld, ht, ERC20.empty]

/-- Two thousand dollars, in the feed's eight decimals. -/
def price2000 : Int256 := ⟨2000 * 10 ^ 8, by decide, by decide⟩

def price1600 : Int256 := ⟨1600 * 10 ^ 8, by decide, by decide⟩

/-- At two thousand dollars the borrower deposits one token and borrows the
limit of a thousand dollars, leaving both tokens approved. -/
def openPosition : EngineTx Unit := do
  (Call.token 3 (.approve 1 (10 ^ 18))).exec (borrowerCtx price2000)
  (Call.token 2 (.approve 1 (10 ^ 21))).exec (borrowerCtx price2000)
  depositCollateralAndMintDSC (borrowerCtx price2000) 3 (10 ^ 18) (10 ^ 21)

def openedWorld : World := openPosition.after sampleWorld

/-- A call of the account `6`, which has no position. -/
def liquidatorCtx (price : Int256) : Ctx := ⟨1, 6, sampleEnv price, by decide⟩

/-- The borrower at the limit of `openPosition` hands a tenth of the stablecoin
to the account `6`, which approves the engine. -/
def fundLiquidator : EngineTx Unit := do
  (Call.token 2 (.transfer 6 (10 ^ 20))).exec (borrowerCtx price2000)
  (Call.token 2 (.approve 1 (10 ^ 20))).exec (liquidatorCtx price2000)

/-- Burning a tenth of the debt after the price fell to sixteen hundred. -/
theorem health_not_worsened_burn :
    ∃ w' after, burnDSC (borrowerCtx price1600) (10 ^ 20) openedWorld = .ok ((), w') ∧
      getHealthFactor (sampleEnv price1600) w'.engine 5 = .ok after ∧
      min MIN_HEALTH_FACTOR (8 * 10 ^ 17) ≤ after := by
  have hop : (EngineOp.burnDSC (10 ^ 20)).exec (borrowerCtx price1600) openedWorld = .ok ((), _) :=
    Tx.ok_after (by decide +kernel)
  have hbefore : getHealthFactor (sampleEnv price1600) openedWorld.engine 5 = .ok (8 * 10 ^ 17) := by
    decide +kernel
  have hafter : getHealthFactor (sampleEnv price1600)
      ((burnDSC (borrowerCtx price1600) (10 ^ 20)).after openedWorld).engine 5 =
        .ok 888888888888888888 := by
    decide +kernel
  exact ⟨_, _, hop, hafter, health_not_worsened hop hbefore hafter⟩

/-! ## 2. Taking out one's own collateral -/

/-- A caller whose own recorded collateral fell is healthy after the call,
unless the call was a liquidation of itself; then the health factor was at most
the minimum and has risen. -/
theorem withdrawal_healthy_or_self_liquidation {c : Ctx} {op : EngineOp} {w w' : World}
    {token : Address} (hop : op.exec c w = .ok ((), w'))
    (hlower : w'.engine.collateralToUser c.sender token < w.engine.collateralToUser c.sender token) :
    (∃ h, getHealthFactor c.env w'.engine c.sender = .ok h ∧ MIN_HEALTH_FACTOR ≤ h) ∨
    ∃ t d start final, op = .liquidate c.sender t d ∧
      getHealthFactor c.env w.engine c.sender = .ok start ∧ start ≤ MIN_HEALTH_FACTOR ∧
      getHealthFactor c.env w'.engine c.sender = .ok final ∧ start < final := by
  rcases position_cases hop c.sender with himp | ⟨-, hcheck⟩ | hself
  · exact absurd (himp.1 token) (Nat.not_le.mpr hlower)
  · exact .inl (_checkHealthFactorAndRevert_ok.mp hcheck)
  · exact .inr hself

/-- The borrower liquidates a tenth of its own debt at sixteen hundred
dollars and takes collateral out, with a health factor below the minimum before
and after. -/
theorem self_liquidation_unhealthy :
    ¬ ∀ (c : Ctx) (op : EngineOp) (w w' : World) (token : Address),
      op.exec c w = .ok ((), w') →
      w'.engine.collateralToUser c.sender token < w.engine.collateralToUser c.sender token →
      ∃ h, getHealthFactor c.env w'.engine c.sender = .ok h ∧ MIN_HEALTH_FACTOR ≤ h := by
  intro hall
  have hop : (EngineOp.liquidate 5 3 (10 ^ 20)).exec (borrowerCtx price1600) openedWorld =
      .ok ((), _) := Tx.ok_after (by decide +kernel)
  have hafter : getHealthFactor (sampleEnv price1600)
      ((liquidate (borrowerCtx price1600) 5 3 (10 ^ 20)).after openedWorld).engine 5 =
        .ok 827777777777777777 := by
    decide +kernel
  obtain ⟨h, hh, hmin⟩ := hall _ _ _ _ 3 hop (by decide +kernel)
  have heq : Except.ok 827777777777777777 = (Except.ok h : Result EngineError Nat) :=
    hafter.symm.trans hh
  cases heq
  exact absurd hmin (by decide)

/-- The same call as an instance of the law: collateral fell, and the health
factor rose from `0.8` to `0.8277`. -/
theorem withdrawal_self_liquidation_rises :
    ∃ w', liquidate (borrowerCtx price1600) 5 3 (10 ^ 20) openedWorld = .ok ((), w') ∧
      ((∃ h, getHealthFactor (sampleEnv price1600) w'.engine 5 = .ok h ∧ MIN_HEALTH_FACTOR ≤ h) ∨
      ∃ t d start final, EngineOp.liquidate 5 3 (10 ^ 20) = .liquidate 5 t d ∧
        getHealthFactor (sampleEnv price1600) openedWorld.engine 5 = .ok start ∧
        start ≤ MIN_HEALTH_FACTOR ∧
        getHealthFactor (sampleEnv price1600) w'.engine 5 = .ok final ∧ start < final) := by
  have hop : (EngineOp.liquidate 5 3 (10 ^ 20)).exec (borrowerCtx price1600) openedWorld =
      .ok ((), _) := Tx.ok_after (by decide +kernel)
  have hlaw := @withdrawal_healthy_or_self_liquidation _ _ _ _ 3 hop (by decide +kernel)
  exact ⟨_, hop, hlaw⟩

end AdvFoundry.Dsc
