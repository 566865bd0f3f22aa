import AdvFoundry.Dsc.Health

/-!
# What each engine function does

One lemma per function of `DSCEngine`: when the call returns, and the world it
returns. The four moves every engine call is made of are `depositedWorld`,
`mintedWorld`, `burnedWorld` and `reedemedWorld`; the guard is free again when
a guarded call returns, so it does not show in them.
-/

namespace AdvFoundry.Dsc

open Function

/-! ## The four moves -/

section Moves

variable (w : World) (this : Address)

/-- `depositCollateral`: `amount` of `token` goes from the wallet of `user` into
the engine and into the record of `user`. -/
def depositedWorld (user token : Address) (amount : Nat)
    (h : amount ≤ ((w.tokens token).spend user this amount).balances user) : World :=
  (w.setCollateral user token (w.engine.collateralToUser user token + amount)).setToken token
    (((w.tokens token).spend user this amount).move user this amount h)

/-- `mintDSC`: `amount` of new stablecoin and of new debt for `user`. -/
def mintedWorld (user : Address) (amount : Nat)
    (h : (w.tokens w.engine.dsc).totalSupply + amount < uintSize) : World :=
  (w.setMinted user (w.engine.dscMinted user + amount)).setToken w.engine.dsc
    ((w.tokens w.engine.dsc).issue user amount h)

/-- `_burnDSC`: `amount` of stablecoin of `payer` is destroyed against the debt
of `debtor`. The tokens pass through the engine, which keeps none. -/
def burnedWorld (debtor payer : Address) (amount : Nat)
    (h : amount ≤ ((w.tokens w.engine.dsc).spend payer this amount).balances payer) : World :=
  (w.setMinted debtor (w.engine.dscMinted debtor - amount)).setToken w.engine.dsc
    (((w.tokens w.engine.dsc).spend payer this amount).destroy payer amount h)

/-- `_reedemCollateral`: `amount` of `token` goes from the record of `src` to
the wallet of `dst`. -/
def reedemedWorld (src dst token : Address) (amount : Nat)
    (h : amount ≤ (w.tokens token).balances this) : World :=
  (w.setCollateral src token (w.engine.collateralToUser src token - amount)).setToken token
    ((w.tokens token).move this dst amount h)

end Moves

/-! ## Reading a world after a write -/

namespace World

variable {w : World} {user token : Address} {amount : Nat} {t : ERC20} {b : Bool}

@[simp] theorem setMinted_tokens : (w.setMinted user amount).tokens = w.tokens := rfl
@[simp] theorem setMinted_engine : (w.setMinted user amount).engine =
    { w.engine with dscMinted := update w.engine.dscMinted user amount } := rfl

@[simp] theorem setCollateral_tokens : (w.setCollateral user token amount).tokens = w.tokens := rfl
@[simp] theorem setCollateral_engine : (w.setCollateral user token amount).engine =
    { w.engine with
      collateralToUser := update w.engine.collateralToUser user
        (update (w.engine.collateralToUser user) token amount) } := rfl

@[simp] theorem setToken_tokens : (w.setToken token t).tokens = update w.tokens token t := rfl
@[simp] theorem setToken_engine : (w.setToken token t).engine = w.engine := rfl

@[simp] theorem setEntered_tokens : (w.setEntered b).tokens = w.tokens := rfl
@[simp] theorem setEntered_engine : (w.setEntered b).engine = { w.engine with entered := b } := rfl

@[simp] theorem coin_erc20 : w.coin.erc20 = w.tokens w.engine.dsc := rfl
@[simp] theorem setCoin_tokens {d : DecentralisedStableCoin} :
    (w.setCoin d).tokens = update w.tokens w.engine.dsc d.erc20 := rfl
@[simp] theorem setCoin_engine {d : DecentralisedStableCoin} : (w.setCoin d).engine = w.engine := rfl

theorem setToken_setToken {t' : ERC20} :
    (w.setToken token t).setToken token t' = w.setToken token t' := by
  simp [setToken]

/-- The guard is taken and released around a body that leaves it alone. -/
theorem setEntered_of_free (h : w.engine.entered = false) : w.setEntered false = w := by
  cases w with
  | mk engine tokens dscOwner =>
    cases engine
    simp_all [setEntered]

end World

/-! ## Internal functions -/

section Functions

variable {c : Ctx} {w w' : World} {u : Unit} {user src dst token : Address} {amount : Nat}

/-- `_burnDSC` passes: the debtor owes `amount`, the payer has approved and
holds it, and the engine owns the coin. -/
structure CanBurn (c : Ctx) (w : World) (amount : Nat) (debtor payer : Address) : Prop where
  debt : amount ≤ w.engine.dscMinted debtor
  approved : (w.tokens w.engine.dsc).CanSpend payer c.this amount
  payer_ne : payer ≠ 0
  this_ne : c.this ≠ 0
  owner : w.dscOwner = c.this
  pos : 0 < amount

theorem callToken_ok {α : Type} {x : Tx ERC20Error ERC20 α} {a : α} :
    callToken token x w = .ok (a, w') ↔
      ∃ t, x (w.tokens token) = .ok (a, t) ∧ w' = w.setToken token t := by
  simp [callToken]

theorem callCoin_ok {α : Type} {x : Tx CoinError DecentralisedStableCoin α} {a : α} :
    callCoin x w = .ok (a, w') ↔ ∃ d, x w.coin = .ok (a, d) ∧ w' = w.setCoin d := by
  simp [callCoin]

/-- A call into the coin that leaves its owner alone is a call into a token. -/
theorem setCoin_erc20 {t : ERC20} :
    w.setCoin { w.coin with erc20 := t } = w.setToken w.engine.dsc t := rfl

theorem _burnDSC_ok {debtor payer : Address} :
    _burnDSC c amount debtor payer w = .ok (u, w') ↔
      CanBurn c w amount debtor payer ∧ ∃ h, w' = burnedWorld w c.this debtor payer amount h := by
  simp only [_burnDSC, Tx.bind_ok, Tx.tryModify_ok, Result.bind_ok, subU_ok, Result.pure_ok,
    Tx.get_ok, callToken_ok, callCoin_ok, ERC20.transferFrom_ok, Tx.revertIf_ok,
    DecentralisedStableCoin.burn_ok]
  constructor
  · rintro ⟨_, _, ⟨_, ⟨hdebt, rfl⟩, rfl⟩, _, _, ⟨rfl, rfl⟩, _, _,
      ⟨_, ⟨rfl, hs, hp, ht, hb, rfl⟩, rfl⟩, _, _, ⟨-, rfl⟩, _, ⟨ho, hpos, -, hd, rfl⟩, rfl⟩
    refine ⟨⟨hdebt, hs, hp, ht, ho, hpos⟩, hb, ?_⟩
    rw [setCoin_erc20]
    simp [burnedWorld, World.setToken_setToken, ERC20.move_destroy]
  · rintro ⟨⟨hdebt, hs, hp, ht, ho, hpos⟩, hb, rfl⟩
    refine ⟨(), _, ⟨_, ⟨hdebt, rfl⟩, rfl⟩, _, _, ⟨rfl, rfl⟩, true, _,
      ⟨_, ⟨rfl, hs, hp, ht, hb, rfl⟩, rfl⟩, (), _, ⟨by simp, rfl⟩, _, ⟨ho, hpos, ht, ?_, rfl⟩, ?_⟩
    · simp
    · rw [setCoin_erc20]
      simp [burnedWorld, World.setToken_setToken, ERC20.move_destroy]

theorem _reedemCollateral_ok :
    _reedemCollateral c src dst token amount w = .ok (u, w') ↔
      amount ≤ w.engine.collateralToUser src token ∧ c.this ≠ 0 ∧ dst ≠ 0 ∧
        ∃ h, w' = reedemedWorld w c.this src dst token amount h := by
  simp only [_reedemCollateral, Tx.bind_ok, Tx.tryModify_ok, Result.bind_ok, subU_ok,
    Result.pure_ok, callToken_ok, ERC20.transfer_ok, Tx.revertIf_ok]
  constructor
  · rintro ⟨_, _, ⟨_, ⟨hrec, rfl⟩, rfl⟩, _, _, ⟨_, ⟨rfl, ht, hd, hb, rfl⟩, rfl⟩, -, rfl⟩
    exact ⟨hrec, ht, hd, hb, rfl⟩
  · rintro ⟨hrec, ht, hd, hb, rfl⟩
    exact ⟨(), _, ⟨_, ⟨hrec, rfl⟩, rfl⟩, true, _, ⟨_, ⟨rfl, ht, hd, hb, rfl⟩, rfl⟩, by simp, rfl⟩

/-! ## Public functions -/

theorem checkValidAmount_ok :
    checkValidAmount amount w = .ok (u, w') ↔ 0 < amount ∧ w' = w := by
  simp [checkValidAmount, Nat.pos_iff_ne_zero]

theorem checkAllowedToken_ok :
    checkAllowedToken token w = .ok (u, w') ↔ w.engine.priceFeeds token ≠ 0 ∧ w' = w := by
  simp [checkAllowedToken]

theorem guarded_ok {body : EngineTx Unit} :
    guarded body w = .ok (u, w') ↔
      w.engine.entered = false ∧
        ∃ w₁, body (w.setEntered true) = .ok (u, w₁) ∧ w' = w₁.setEntered false := by
  exact nonReentrant_ok

/-- `depositCollateral` passes: the token is listed, and the caller has approved
and holds the amount. -/
structure CanDeposit (c : Ctx) (w : World) (token : Address) (amount : Nat) : Prop where
  pos : 0 < amount
  allowed : w.engine.priceFeeds token ≠ 0
  free : w.engine.entered = false
  fits : w.engine.collateralToUser c.sender token + amount < uintSize
  approved : (w.tokens token).CanSpend c.sender c.this amount
  sender_ne : c.sender ≠ 0
  this_ne : c.this ≠ 0

theorem depositCollateral_ok :
    depositCollateral c token amount w = .ok (u, w') ↔
      CanDeposit c w token amount ∧ ∃ h, w' = depositedWorld w c.this c.sender token amount h := by
  simp only [depositCollateral, Tx.bind_ok, checkValidAmount_ok, checkAllowedToken_ok, guarded_ok,
    Tx.tryModify_ok, Result.bind_ok, addU_ok, Result.pure_ok, callToken_ok, ERC20.transferFrom_ok,
    Tx.revertIf_ok]
  constructor
  · rintro ⟨_, _, ⟨hpos, rfl⟩, _, w, ⟨hall, rfl⟩, hfree, _, ⟨_, _, ⟨_, ⟨hfit, rfl⟩, rfl⟩, _, _,
      ⟨_, ⟨rfl, hs, hp, ht, hb, rfl⟩, rfl⟩, -, rfl⟩, rfl⟩
    refine ⟨⟨hpos, hall, hfree, hfit, hs, hp, ht⟩, hb, ?_⟩
    exact World.setEntered_of_free (w := depositedWorld w c.this c.sender token amount hb) hfree
  · rintro ⟨⟨hpos, hall, hfree, hfit, hs, hp, ht⟩, hb, rfl⟩
    refine ⟨(), w, ⟨hpos, rfl⟩, (), w, ⟨hall, rfl⟩, hfree, _, ⟨(), _, ⟨_, ⟨hfit, rfl⟩, rfl⟩, true, _,
      ⟨_, ⟨rfl, hs, hp, ht, hb, rfl⟩, rfl⟩, by simp, rfl⟩, ?_⟩
    exact (World.setEntered_of_free
      (w := depositedWorld w c.this c.sender token amount hb) hfree).symm

/-- `mintDSC` passes: the caller is healthy with the new debt, the supply has
room, and the engine owns the coin. -/
structure CanMint (c : Ctx) (w : World) (amount : Nat) : Prop where
  pos : 0 < amount
  fits : w.engine.dscMinted c.sender + amount < uintSize
  healthy : _checkHealthFactorAndRevert c.env
    (w.setMinted c.sender (w.engine.dscMinted c.sender + amount)).engine c.sender = .ok ()
  owner : w.dscOwner = c.this
  sender_ne : c.sender ≠ 0
  this_ne : c.this ≠ 0

theorem mintDSC_ok :
    mintDSC c amount w = .ok (u, w') ↔
      CanMint c w amount ∧ ∃ h, w' = mintedWorld w c.sender amount h := by
  simp only [mintDSC, Tx.bind_ok, checkValidAmount_ok, Tx.tryModify_ok, Result.bind_ok, addU_ok,
    Result.pure_ok, Tx.view_ok, callCoin_ok, DecentralisedStableCoin.mint_ok, Tx.revertIf_ok]
  constructor
  · rintro ⟨_, _, ⟨hpos, rfl⟩, _, _, ⟨_, ⟨hfit, rfl⟩, rfl⟩, _, _, ⟨hh, rfl⟩, _, _,
      ⟨_, ⟨rfl, ho, -, ht, hs, hsup, rfl⟩, rfl⟩, -, rfl⟩
    exact ⟨⟨hpos, hfit, hh, ho, hs, ht⟩, hsup, rfl⟩
  · rintro ⟨⟨hpos, hfit, hh, ho, hs, ht⟩, hsup, rfl⟩
    exact ⟨(), w, ⟨hpos, rfl⟩, (), _, ⟨_, ⟨hfit, rfl⟩, rfl⟩, (), _, ⟨hh, rfl⟩, true, _,
      ⟨_, ⟨rfl, ho, hpos, ht, hs, hsup, rfl⟩, rfl⟩, by simp, rfl⟩

theorem depositCollateralAndMintDSC_ok {amountToBeMinted : Nat} :
    depositCollateralAndMintDSC c token amount amountToBeMinted w = .ok (u, w') ↔
      ∃ w₁, depositCollateral c token amount w = .ok ((), w₁) ∧
        mintDSC c amountToBeMinted w₁ = .ok ((), w') := by
  simp only [depositCollateralAndMintDSC, Tx.bind_ok, checkValidAmount_ok, checkAllowedToken_ok]
  constructor
  · rintro ⟨_, _, ⟨-, rfl⟩, _, _, ⟨-, rfl⟩, _, w₁, hd, hm⟩
    exact ⟨w₁, hd, hm⟩
  · rintro ⟨w₁, hd, hm⟩
    have hcan := (depositCollateral_ok.mp hd).1
    exact ⟨(), w, ⟨hcan.pos, rfl⟩, (), w, ⟨hcan.allowed, rfl⟩, (), w₁, hd, hm⟩

theorem burnDSC_ok :
    burnDSC c amount w = .ok (u, w') ↔
      w.engine.entered = false ∧ _burnDSC c amount c.sender c.sender w = .ok ((), w') := by
  simp only [burnDSC, Tx.bind_ok, checkValidAmount_ok, guarded_ok, _burnDSC_ok]
  constructor
  · rintro ⟨_, w, ⟨-, rfl⟩, hfree, _, ⟨hcan, hb, rfl⟩, rfl⟩
    refine ⟨hfree, ⟨hcan.debt, hcan.approved, hcan.payer_ne, hcan.this_ne, hcan.owner, hcan.pos⟩,
      hb, ?_⟩
    exact World.setEntered_of_free (w := burnedWorld w c.this c.sender c.sender amount hb) hfree
  · rintro ⟨hfree, hcan, hb, rfl⟩
    refine ⟨(), w, ⟨hcan.pos, rfl⟩, hfree, _,
      ⟨⟨hcan.debt, hcan.approved, hcan.payer_ne, hcan.this_ne, hcan.owner, hcan.pos⟩, hb, rfl⟩, ?_⟩
    exact (World.setEntered_of_free
      (w := burnedWorld w c.this c.sender c.sender amount hb) hfree).symm

/-- A guarded `reedemCollateral` moves the caller's own collateral and then
checks the caller. -/
theorem reedemCollateral_ok :
    reedemCollateral c token amount w = .ok (u, w') ↔
      0 < amount ∧ w.engine.entered = false ∧
        _reedemCollateral c c.sender c.sender token amount w = .ok ((), w') ∧
        _checkHealthFactorAndRevert c.env w'.engine c.sender = .ok () := by
  simp only [reedemCollateral, Tx.bind_ok, checkValidAmount_ok, guarded_ok, _reedemCollateral_ok,
    Tx.view_ok]
  constructor
  · rintro ⟨_, w, ⟨hpos, rfl⟩, hfree, _, ⟨_, _, ⟨hrec, ht, hd, hb, rfl⟩, hh, rfl⟩, rfl⟩
    have hw := World.setEntered_of_free
      (w := reedemedWorld w c.this c.sender c.sender token amount hb) hfree
    exact ⟨hpos, hfree, ⟨hrec, ht, hd, hb, hw⟩, hh⟩
  · rintro ⟨hpos, hfree, ⟨hrec, ht, hd, hb, rfl⟩, hh⟩
    have hw := World.setEntered_of_free
      (w := reedemedWorld w c.this c.sender c.sender token amount hb) hfree
    exact ⟨(), w, ⟨hpos, rfl⟩, hfree, _, ⟨(), _, ⟨hrec, ht, hd, hb, rfl⟩, hh, rfl⟩, hw.symm⟩

theorem reedemCollateralAndBurnDSC_ok {amountToBeBurned : Nat} :
    reedemCollateralAndBurnDSC c token amount amountToBeBurned w = .ok (u, w') ↔
      ∃ w₁, burnDSC c amountToBeBurned w = .ok ((), w₁) ∧
        reedemCollateral c token amount w₁ = .ok ((), w') := by
  simp only [reedemCollateralAndBurnDSC, Tx.bind_ok, checkValidAmount_ok, Tx.view_ok]
  constructor
  · rintro ⟨_, _, ⟨-, rfl⟩, _, w₁, hb, _, _, hr, -, rfl⟩
    exact ⟨w₁, hb, hr⟩
  · rintro ⟨w₁, hb, hr⟩
    obtain ⟨hpos, -, -, hh⟩ := reedemCollateral_ok.mp hr
    exact ⟨(), w, ⟨hpos, rfl⟩, (), w₁, hb, (), w', hr, hh, rfl⟩

/-- The amounts `liquidate` computes before it moves anything. -/
structure Seizes (c : Ctx) (w : World) (token : Address) (debt total : Nat) : Prop where
  fresh : ∃ round, getLatestRoundDataAndRevertIfStale c.env (w.engine.priceFeeds token) = .ok round
  priced : quoted c.env w.engine token * ADDITIONAL_FEED_PRECISION ≠ 0
  price_fits : quoted c.env w.engine token * ADDITIONAL_FEED_PRECISION < uintSize
  debt_fits : debt * PRECISION < uintSize
  bonus_fits : collateralFor (quoted c.env w.engine token) debt * LIQUIDATION_BONUS < uintSize
  total_fits : seized (quoted c.env w.engine token) debt < uintSize
  total_eq : total = seized (quoted c.env w.engine token) debt

theorem _convertDscToCollateral_ok {env : Env} {e : DSCEngine} {debt r : Nat} :
    _convertDscToCollateral env e token debt = .ok r ↔
      (∃ round, getLatestRoundDataAndRevertIfStale env (e.priceFeeds token) = .ok round) ∧
        debt * PRECISION < uintSize ∧
        quoted env e token * ADDITIONAL_FEED_PRECISION < uintSize ∧
        quoted env e token * ADDITIONAL_FEED_PRECISION ≠ 0 ∧
        r = collateralFor (quoted env e token) debt := by
  simp only [_convertDscToCollateral, Result.bind_ok, mulU_ok, divU_ok, collateralFor]
  constructor
  · rintro ⟨round, hround, _, ⟨hd, rfl⟩, _, ⟨hp, rfl⟩, h0, rfl⟩
    have hq : quoted env e token = round.answer.toUint256 := by simp [quoted, hround]
    rw [hq]
    exact ⟨⟨round, hround⟩, hd, hp, h0, rfl⟩
  · rintro ⟨⟨round, hround⟩, hd, hp, h0, rfl⟩
    have hq : quoted env e token = round.answer.toUint256 := by simp [quoted, hround]
    rw [hq] at hp h0 ⊢
    exact ⟨round, hround, _, ⟨hd, rfl⟩, _, ⟨hp, rfl⟩, h0, rfl⟩

/-- `liquidate` returns when the covered debt is positive and owed, the user's
health factor is at most the minimum, the two moves pass, and the health factor
has risen in the end. -/
theorem liquidate_ok {badUser : Address} {debt : Nat} :
    liquidate c badUser token debt w = .ok (u, w') ↔
      0 < debt ∧ debt ≤ w.engine.dscMinted badUser ∧
        ∃ start, getHealthFactor c.env w.engine badUser = .ok start ∧ start ≤ MIN_HEALTH_FACTOR ∧
        ∃ total, Seizes c w token debt total ∧
        ∃ w₁, _burnDSC c debt badUser c.sender w = .ok ((), w₁) ∧
          _reedemCollateral c badUser c.sender token total w₁ = .ok ((), w') ∧
        ∃ final, getHealthFactor c.env w'.engine badUser = .ok final ∧ start < final := by
  -- the reads and checks leave the world alone, so only the two moves keep a world of their own
  simp only [liquidate, Tx.bind_ok, checkValidAmount_ok, Tx.get_ok, Tx.revertIf_ok, Tx.view_ok,
    _convertDscToCollateral_ok, mulU_ok, divU_ok, addU_ok, Nat.not_lt, Nat.not_le, existsAndEq,
    exists_const, and_true, true_and]
  constructor
  · rintro ⟨hpos, hdebt, start, hstart, hmin, ⟨hfresh, hd, hp, h0⟩, hbonus, -, htotal, _, w₁, hburn, _,
      final, hreedem, hfinal, hlt⟩
    exact ⟨hpos, hdebt, start, hstart, hmin, _, ⟨hfresh, h0, hp, hd, hbonus, htotal, rfl⟩,
      w₁, hburn, hreedem, final, hfinal, hlt⟩
  · rintro ⟨hpos, hdebt, start, hstart, hmin, _, ⟨hfresh, h0, hp, hd, hbonus, htotal, rfl⟩, w₁, hburn,
      hreedem, final, hfinal, hlt⟩
    exact ⟨hpos, hdebt, start, hstart, hmin, ⟨hfresh, hd, hp, h0⟩, hbonus, by decide, htotal, (), w₁,
      hburn, (), final, hreedem, hfinal, hlt⟩

end Functions

end AdvFoundry.Dsc
