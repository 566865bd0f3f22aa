import AdvFoundry.Drs.System

/-!
# What each function of StableCoinEngine does on standard tokens

One lemma per function: when the call returns, and the world it returns. The
four moves are those of `DSCEngine`, and `settles_engine` says that with a
standard token a call never hands over control.
-/

namespace AdvFoundry.Drs

open Function

/-! ## The four moves -/

section Moves

variable (w : World) (this : Address)

/-- `_depositCollateral`: `amount` of `token` goes from the wallet of `user`
into the engine and into the record of `user`. -/
def depositedWorld (user token : Address) (amount : Nat)
    (h : amount ≤ ((w.tokens token).spend user this amount).balances user) : World :=
  (w.setCollateral user token (w.engine.collateralToUser user token + amount)).setToken token
    (((w.tokens token).spend user this amount).move user this amount h)

/-- `_mint`: `amount` of new stablecoin and of new debt for `user`. -/
def mintedWorld (user : Address) (amount : Nat)
    (h : (w.tokens w.engine.drs).totalSupply + amount < uintSize) : World :=
  (w.setMinted user (w.engine.userToDRSminted user + amount)).setToken w.engine.drs
    ((w.tokens w.engine.drs).issue user amount h)

/-- `_burn`: `amount` of stablecoin of `payer` is destroyed against the debt of
`debtor`. -/
def burnedWorld (debtor payer : Address) (amount : Nat)
    (h : amount ≤ ((w.tokens w.engine.drs).spend payer this amount).balances payer) : World :=
  (w.setMinted debtor (w.engine.userToDRSminted debtor - amount)).setToken w.engine.drs
    (((w.tokens w.engine.drs).spend payer this amount).destroy payer amount h)

/-- `_reedemCollateral`: `amount` of `token` goes from the record of `src` to
the wallet of `dst`. -/
def reedemedWorld (src dst token : Address) (amount : Nat)
    (h : amount ≤ (w.tokens token).balances this) : World :=
  (w.setCollateral src token (w.engine.collateralToUser src token - amount)).setToken token
    ((w.tokens token).move this dst amount h)

end Moves

namespace World

variable {w : World} {b : Bool}

@[simp] theorem setEntered_tokens : (w.setEntered b).tokens = w.tokens := rfl
@[simp] theorem setEntered_engine : (w.setEntered b).engine = { w.engine with entered := b } := rfl

/-- The guard is taken and released around a body that leaves it alone. -/
theorem setEntered_of_free (h : w.engine.entered = false) : w.setEntered false = w := by
  cases w with
  | mk engine tokens drsOwner env sent =>
    cases engine
    simp_all [setEntered]

end World

section Functions

variable {c : Ctx} {w w' : World} {u : Unit} {user src dst token debtor payer : Address}
  {amount : Nat}

/-- The answer of a standard token is that of its code. -/
theorem callCollateral_standard (query : TokenQuery) (h : c.standard query.token = true) (w : World) :
    callCollateral c query w =
      (Proc.tx (callToken query.token (query.exec c.this)) : EngineProc Bool) w := by
  show (if w.Standard c.standard query.token then _ else _ : EngineProc Bool) w = _
  rw [if_pos (.inr h)]

theorem guarded_returned {α : Type} {body : EngineProc α} {a : α} :
    guarded body w = .returned a w' ↔
      w.engine.entered = false ∧
        ∃ w₁, body (w.setEntered true) = .returned a w₁ ∧ w' = w₁.setEntered false := by
  simp only [guarded, Proc.bind_returned, Proc.tx_returned, Proc.pure_returned, Tx.bind_ok, Tx.get_ok,
    Tx.revertIf_ok, Tx.modify_ok, Bool.not_eq_true]
  constructor
  · rintro ⟨_, _, ⟨_, w, ⟨rfl, rfl⟩, _, w, ⟨hfree, rfl⟩, rfl⟩, _, w₁, hbody, _, _, rfl, rfl, rfl⟩
    exact ⟨hfree, w₁, hbody, rfl⟩
  · rintro ⟨hfree, w₁, hbody, rfl⟩
    exact ⟨(), _, ⟨w, w, ⟨rfl, rfl⟩, (), w, ⟨hfree, rfl⟩, rfl⟩, a, w₁, hbody, (), _, rfl, rfl, rfl⟩

/-- `_burn` passes: the debtor owes `amount`, the payer has approved and holds
it, and the engine owns the coin. -/
structure CanBurn (c : Ctx) (w : World) (amount : Nat) (debtor payer : Address) : Prop where
  debt : amount ≤ w.engine.userToDRSminted debtor
  approved : (w.tokens w.engine.drs).CanSpend payer c.this amount
  payer_ne : payer ≠ 0
  this_ne : c.this ≠ 0
  owner : w.drsOwner = c.this
  pos : 0 < amount

theorem _burn_returned :
    _burn c payer debtor amount w = .returned u w' ↔
      CanBurn c w amount debtor payer ∧ ∃ h, w' = burnedWorld w c.this debtor payer amount h := by
  simp only [_burn, Proc.tx_returned, Tx.bind_ok, Tx.tryModify_ok, Result.bind_ok, subU_ok,
    Result.pure_ok, Tx.get_ok, callToken_ok, callCoin_ok, ERC20.transferFrom_ok, Tx.revertIf_ok,
    StableCoin.burn_ok]
  constructor
  · rintro ⟨_, _, ⟨_, ⟨hdebt, rfl⟩, rfl⟩, _, _, ⟨rfl, rfl⟩, _, _,
      ⟨_, ⟨rfl, hs, hp, ht, hb, rfl⟩, rfl⟩, _, _, ⟨-, rfl⟩, _, ⟨ho, hpos, -, hd, rfl⟩, rfl⟩
    refine ⟨⟨hdebt, hs, hp, ht, ho, hpos⟩, hb, ?_⟩
    rw [setCoin_erc20]
    simp [burnedWorld, World.setToken_setToken, ERC20.move_destroy]
  · rintro ⟨⟨hdebt, hs, hp, ht, ho, hpos⟩, hb, rfl⟩
    refine ⟨(), _, ⟨_, ⟨hdebt, rfl⟩, rfl⟩, _, _, ⟨rfl, rfl⟩, true, _,
      ⟨_, ⟨rfl, hs, hp, ht, hb, rfl⟩, rfl⟩, (), _, ⟨by simp, rfl⟩, _, ⟨ho, hpos, ht, ?_, rfl⟩, ?_⟩
    · simp
    · rw [setCoin_erc20]
      simp [burnedWorld, World.setToken_setToken, ERC20.move_destroy]

theorem _reedemCollateral_returned (hstd : c.standard token = true) :
    _reedemCollateral c src dst token amount w = .returned u w' ↔
      w.engine.entered = false ∧ amount ≤ w.engine.collateralToUser src token ∧ c.this ≠ 0 ∧
        dst ≠ 0 ∧ ∃ h, w' = reedemedWorld w c.this src dst token amount h := by
  have hquery := callCollateral_standard (.transfer token dst amount) hstd
  simp only [_reedemCollateral, guarded_returned, Proc.bind_returned, Proc.tx_returned, hquery,
    TokenQuery.token, TokenQuery.exec, Tx.tryModify_ok, Result.bind_ok, subU_ok, Result.pure_ok,
    callToken_ok, ERC20.transfer_ok, Tx.revertIf_ok]
  constructor
  · rintro ⟨hfree, _, ⟨_, _, ⟨_, ⟨hrec, rfl⟩, rfl⟩, _, _, ⟨_, ⟨rfl, ht, hd, hb, rfl⟩, rfl⟩, -, rfl⟩,
      rfl⟩
    refine ⟨hfree, hrec, ht, hd, hb, ?_⟩
    exact World.setEntered_of_free (w := reedemedWorld w c.this src dst token amount hb) hfree
  · rintro ⟨hfree, hrec, ht, hd, hb, rfl⟩
    refine ⟨hfree, _, ⟨(), _, ⟨_, ⟨hrec, rfl⟩, rfl⟩, true, _, ⟨_, ⟨rfl, ht, hd, hb, rfl⟩, rfl⟩,
      by simp, rfl⟩, ?_⟩
    exact (World.setEntered_of_free
      (w := reedemedWorld w c.this src dst token amount hb) hfree).symm

/-- `_mint` passes: the new debt fits, and the engine owns the coin. -/
structure CanMint (c : Ctx) (w : World) (amount : Nat) : Prop where
  free : w.engine.entered = false
  pos : 0 < amount
  fits : w.engine.userToDRSminted c.sender + amount < uintSize
  owner : w.drsOwner = c.this
  sender_ne : c.sender ≠ 0

theorem _mint_returned :
    _mint c amount w = .returned u w' ↔
      CanMint c w amount ∧ ∃ h, w' = mintedWorld w c.sender amount h := by
  simp only [_mint, guarded_returned, Proc.tx_returned, Tx.bind_ok, Tx.tryModify_ok, Result.bind_ok,
    addU_ok, Result.pure_ok, callCoin_ok, StableCoin.mint_ok, Tx.revertIf_ok]
  constructor
  · rintro ⟨hfree, _, ⟨_, _, ⟨_, ⟨hfit, rfl⟩, rfl⟩, _, _, ⟨_, ⟨rfl, ho, hpos, hs, hsup, rfl⟩, rfl⟩, -,
      rfl⟩, rfl⟩
    refine ⟨⟨hfree, hpos, hfit, ho, hs⟩, hsup, ?_⟩
    exact World.setEntered_of_free (w := mintedWorld w c.sender amount hsup) hfree
  · rintro ⟨⟨hfree, hpos, hfit, ho, hs⟩, hsup, rfl⟩
    refine ⟨hfree, _, ⟨(), _, ⟨_, ⟨hfit, rfl⟩, rfl⟩, true, _, ⟨_, ⟨rfl, ho, hpos, hs, hsup, rfl⟩, rfl⟩,
      by simp, rfl⟩, ?_⟩
    exact (World.setEntered_of_free (w := mintedWorld w c.sender amount hsup) hfree).symm

/-- `_depositCollateral` passes: the caller has approved and holds the amount. -/
structure CanDeposit (c : Ctx) (w : World) (token : Address) (amount : Nat) : Prop where
  free : w.engine.entered = false
  fits : w.engine.collateralToUser c.sender token + amount < uintSize
  approved : (w.tokens token).CanSpend c.sender c.this amount
  sender_ne : c.sender ≠ 0
  this_ne : c.this ≠ 0

theorem _depositCollateral_returned (hstd : c.standard token = true) :
    _depositCollateral c token amount w = .returned u w' ↔
      CanDeposit c w token amount ∧ ∃ h, w' = depositedWorld w c.this c.sender token amount h := by
  have hquery := callCollateral_standard (.transferFrom token c.sender c.this amount) hstd
  simp only [_depositCollateral, guarded_returned, Proc.bind_returned, Proc.tx_returned, hquery,
    TokenQuery.token, TokenQuery.exec, Tx.tryModify_ok, Result.bind_ok, addU_ok, Result.pure_ok,
    callToken_ok, ERC20.transferFrom_ok, Tx.revertIf_ok]
  constructor
  · rintro ⟨hfree, _, ⟨_, _, ⟨_, ⟨hfit, rfl⟩, rfl⟩, _, _, ⟨_, ⟨rfl, hs, hp, ht, hb, rfl⟩, rfl⟩, -, rfl⟩,
      rfl⟩
    refine ⟨⟨hfree, hfit, hs, hp, ht⟩, hb, ?_⟩
    exact World.setEntered_of_free (w := depositedWorld w c.this c.sender token amount hb) hfree
  · rintro ⟨⟨hfree, hfit, hs, hp, ht⟩, hb, rfl⟩
    refine ⟨hfree, _, ⟨(), _, ⟨_, ⟨hfit, rfl⟩, rfl⟩, true, _, ⟨_, ⟨rfl, hs, hp, ht, hb, rfl⟩, rfl⟩,
      by simp, rfl⟩, ?_⟩
    exact (World.setEntered_of_free
      (w := depositedWorld w c.this c.sender token amount hb) hfree).symm

/-- `_checkHealthFactorOrRevert` passes for users with a computable health factor
of at least the minimum. -/
theorem _checkHealthFactorOrRevert_ok {env : Env} {e : StableCoinEngine} :
    _checkHealthFactorOrRevert env e user = .ok u ↔
      ∃ f, getHealthFactor env e user = .ok f ∧ MINIMUM_HEALTH_FACTOR ≤ f := by
  simp only [_checkHealthFactorOrRevert, getHealthFactor, Result.bind_ok, Result.revertIf_ok,
    Nat.not_lt]
  constructor
  · rintro ⟨info, hinfo, f, hf, hmin⟩
    exact ⟨f, ⟨info, hinfo, hf⟩, hmin⟩
  · rintro ⟨f, ⟨info, hinfo, hf⟩, hmin⟩
    exact ⟨info, hinfo, f, hf, hmin⟩

theorem checkSender_returned :
    checkSender c w = .returned u w' ↔
      _checkHealthFactorOrRevert w.env w.engine c.sender = .ok () ∧ w' = w := by
  simp only [checkSender, Proc.tx_returned, Tx.view_ok]

theorem validAmount_returned :
    validAmount amount w = .returned u w' ↔ 0 < amount ∧ w' = w := by
  simp [validAmount, Nat.pos_iff_ne_zero]

/-! ## Public functions -/

theorem depositCollateral_returned :
    depositCollateral c token amount w = .returned u w' ↔
      0 < amount ∧ _depositCollateral c token amount w = .returned () w' := by
  simp only [depositCollateral, Proc.bind_returned, validAmount_returned]
  constructor
  · rintro ⟨_, w, ⟨hpos, rfl⟩, h⟩
    exact ⟨hpos, h⟩
  · rintro ⟨hpos, h⟩
    exact ⟨(), w, ⟨hpos, rfl⟩, h⟩

/-- The health of the caller is checked after the mint, on records that the coin
has no part in. -/
theorem mintDRS_returned :
    mintDRS c amount w = .returned u w' ↔
      (CanMint c w amount ∧ _checkHealthFactorOrRevert w.env
        (w.setMinted c.sender (w.engine.userToDRSminted c.sender + amount)).engine c.sender = .ok ()) ∧
        ∃ h, w' = mintedWorld w c.sender amount h := by
  simp only [mintDRS, Proc.bind_returned, validAmount_returned, checkSender_returned, _mint_returned]
  constructor
  · rintro ⟨_, w, ⟨-, rfl⟩, _, _, ⟨hcan, h, rfl⟩, hcheck, rfl⟩
    exact ⟨⟨hcan, hcheck⟩, h, rfl⟩
  · rintro ⟨⟨hcan, hcheck⟩, h, rfl⟩
    exact ⟨(), w, ⟨hcan.pos, rfl⟩, (), _, ⟨hcan, h, rfl⟩, hcheck, rfl⟩

theorem depositCollateralAndMintDRS_returned {drsToMint : Nat} :
    depositCollateralAndMintDRS c token amount drsToMint w = .returned u w' ↔
      ∃ w₁, _depositCollateral c token amount w = .returned () w₁ ∧
        mintDRS c drsToMint w₁ = .returned () w' := by
  simp only [depositCollateralAndMintDRS, mintDRS, Proc.bind_returned, validAmount_returned]
  constructor
  · rintro ⟨_, w₁, hdeposit, _, w₂, hmint, hcheck⟩
    have hcan := (_mint_returned.mp hmint).1
    exact ⟨w₁, hdeposit, (), w₁, ⟨hcan.pos, rfl⟩, (), w₂, hmint, hcheck⟩
  · rintro ⟨w₁, hdeposit, _, _, ⟨-, rfl⟩, _, w₂, hmint, hcheck⟩
    exact ⟨(), _, hdeposit, (), w₂, hmint, hcheck⟩

theorem reedemCollateral_returned :
    reedemCollateral c token amount w = .returned u w' ↔
      0 < amount ∧ _reedemCollateral c c.sender c.sender token amount w = .returned () w' ∧
        _checkHealthFactorOrRevert w'.env w'.engine c.sender = .ok () := by
  simp only [reedemCollateral, Proc.bind_returned, validAmount_returned, checkSender_returned]
  constructor
  · rintro ⟨_, w, ⟨hpos, rfl⟩, _, w₁, h, hcheck, rfl⟩
    exact ⟨hpos, h, hcheck⟩
  · rintro ⟨hpos, h, hcheck⟩
    exact ⟨(), w, ⟨hpos, rfl⟩, (), w', h, hcheck, rfl⟩

theorem burnDRS_returned :
    burnDRS c amount w = .returned u w' ↔ _burn c c.sender c.sender amount w = .returned () w' := by
  simp only [burnDRS, Proc.bind_returned, validAmount_returned]
  constructor
  · rintro ⟨_, w, ⟨-, rfl⟩, h⟩
    exact h
  · intro h
    have hcan := (_burn_returned.mp h).1
    exact ⟨(), w, ⟨hcan.pos, rfl⟩, h⟩

theorem burnAndReedemCollateral_returned {amountDRStoBurn : Nat} (hpos : 0 < amount) :
    burnAndReedemCollateral c token amount amountDRStoBurn w = .returned u w' ↔
      ∃ w₁, burnDRS c amountDRStoBurn w = .returned () w₁ ∧
        reedemCollateral c token amount w₁ = .returned () w' := by
  simp only [burnAndReedemCollateral, Proc.bind_returned, checkSender_returned, burnDRS_returned,
    reedemCollateral_returned]
  constructor
  · rintro ⟨_, w₁, hburn, _, w₂, hreedem, hcheck, rfl⟩
    exact ⟨w₁, hburn, hpos, hreedem, hcheck⟩
  · rintro ⟨w₁, hburn, -, hreedem, hcheck⟩
    exact ⟨(), w₁, hburn, (), w', hreedem, hcheck, rfl⟩

/-- The collateral `liquidate` pays out for covering `debt`. -/
def Seizes (w : World) (token : Address) (debt total : Nat) : Prop :=
  ∃ needed, _convertDRStoCollateral w.env w.engine token debt = .ok needed ∧
    needed * BONUS_FOR_LIQUIDATION < uintSize ∧
    needed + needed * BONUS_FOR_LIQUIDATION / LIQUIDATION_PRECISION < uintSize ∧
    total = needed + needed * BONUS_FOR_LIQUIDATION / LIQUIDATION_PRECISION

theorem liquidate_returned {badUser : Address} {debt : Nat} :
    liquidate c badUser token debt w = .returned u w' ↔
      0 < debt ∧ debt ≤ w.engine.userToDRSminted badUser ∧
        ∃ start, getHealthFactor w.env w.engine badUser = .ok start ∧
          start ≤ MINIMUM_HEALTH_FACTOR ∧
        ∃ total, Seizes w token debt total ∧
        ∃ w₁, _burn c c.sender badUser debt w = .returned () w₁ ∧
          _reedemCollateral c badUser c.sender token total w₁ = .returned () w' ∧
        ∃ final, getHealthFactor w'.env w'.engine badUser = .ok final ∧ start < final := by
  simp only [liquidate, liquidationTerms, Proc.bind_returned, Proc.tx_returned, validAmount_returned,
    Tx.bind_ok, Tx.pure_ok, Tx.get_ok, Tx.revertIf_ok, Tx.view_ok, mulU_ok, divU_ok, addU_ok,
    Nat.not_lt, Nat.not_le, existsAndEq, exists_const, and_true, true_and]
  constructor
  · rintro ⟨hpos, start, needed, ⟨hdebt, hstart, hmin, hneeded, hbonus, -, htotal⟩, _, w₁, hburn, _,
      final, hreedem, hfinal, hlt⟩
    rw [Nat.add_comm] at htotal hreedem
    exact ⟨hpos, hdebt, start, hstart, hmin, _, ⟨needed, hneeded, hbonus, htotal, rfl⟩, w₁, hburn,
      hreedem, final, hfinal, hlt⟩
  · rintro ⟨hpos, hdebt, start, hstart, hmin, _, ⟨needed, hneeded, hbonus, htotal, rfl⟩, w₁, hburn,
      hreedem, final, hfinal, hlt⟩
    rw [Nat.add_comm] at htotal hreedem
    exact ⟨hpos, start, needed, ⟨hdebt, hstart, hmin, hneeded, hbonus, by decide, htotal⟩, (), w₁, hburn,
      (), final, hreedem, hfinal, hlt⟩

end Functions

/-! ## Control stays with the engine -/

/-- The call does not hand over control. -/
abbrev Settles {α : Type} (o : Outcome EngineError World TokenQuery Bool α) : Prop :=
  o.Safe (fun _ => False) (fun _ => True) (fun _ => True) fun _ _ => True

namespace SettleLemmas

variable {α β : Type} {c : Ctx} {w : World} {token src dst payer debtor : Address} {amount : Nat}

theorem settles_tx {x : EngineTx α} : Settles ((Proc.tx x : EngineProc α) w) :=
  Proc.safe_tx (fun _ _ _ => trivial) fun _ _ => trivial

theorem settles_bind {x : EngineProc α} {f : α → EngineProc β} (hx : Settles (x w))
    (hf : ∀ a w', Settles (f a w')) : Settles ((x >>= f) w) :=
  Proc.safe_bind (fun _ _ => True) hx fun a w' _ => hf a w'

theorem settles_guarded {body : EngineProc α} (hbody : ∀ w, Settles (body w)) :
    Settles (guarded body w) :=
  settles_bind settles_tx fun _ w₁ => settles_bind (hbody w₁) fun _ _ =>
    settles_bind settles_tx fun _ _ => trivial

theorem settles_callCollateral {query : TokenQuery} (h : c.standard query.token = true) :
    Settles (callCollateral c query w) := by
  rw [callCollateral_standard query h]
  exact settles_tx

theorem settles_deposit (h : c.standard token = true) :
    Settles (_depositCollateral c token amount w) :=
  settles_guarded fun _ => settles_bind settles_tx fun _ _ =>
    settles_bind (settles_callCollateral h) fun _ _ => settles_tx

theorem settles_reedem (h : c.standard token = true) :
    Settles (_reedemCollateral c src dst token amount w) :=
  settles_guarded fun _ => settles_bind settles_tx fun _ _ =>
    settles_bind (settles_callCollateral h) fun _ _ => settles_tx

theorem settles_mint : Settles (_mint c amount w) :=
  settles_guarded fun _ => settles_tx

end SettleLemmas

open SettleLemmas

/-- The collateral token an engine call names. -/
def EngineOp.collateral : EngineOp → Option Address
  | depositCollateralAndMintDRS t _ _ => some t
  | depositCollateral t _ => some t
  | mintDRS _ => none
  | burnAndReedemCollateral t _ _ => some t
  | reedemCollateral t _ => some t
  | burnDRS _ => none
  | liquidate _ t _ => some t

/-- An engine call that names a standard token keeps control. -/
theorem settles_engine {c : Ctx} {w : World} (op : EngineOp)
    (h : ∀ t ∈ op.collateral, c.standard t = true) : Settles (op.exec c w) := by
  cases op with
  | depositCollateralAndMintDRS t a m =>
    exact settles_bind (settles_deposit (h t rfl)) fun _ _ => settles_bind settles_mint fun _ _ =>
      settles_tx
  | depositCollateral t a => exact settles_bind settles_tx fun _ _ => settles_deposit (h t rfl)
  | mintDRS a =>
    exact settles_bind settles_tx fun _ _ => settles_bind settles_mint fun _ _ => settles_tx
  | burnAndReedemCollateral t a b =>
    exact settles_bind settles_tx fun _ _ => settles_bind (settles_reedem (h t rfl)) fun _ _ =>
      settles_tx
  | reedemCollateral t a =>
    exact settles_bind settles_tx fun _ _ => settles_bind (settles_reedem (h t rfl)) fun _ _ =>
      settles_tx
  | burnDRS a => exact settles_bind settles_tx fun _ _ => settles_tx
  | liquidate b t d =>
    exact settles_bind settles_tx fun _ _ => settles_bind settles_tx fun _ _ =>
      settles_bind settles_tx fun _ _ => settles_bind (settles_reedem (h t rfl)) fun _ _ =>
        settles_bind settles_tx fun _ _ => settles_tx

end AdvFoundry.Drs
