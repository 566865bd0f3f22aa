import AdvFoundry.Dsc.Positions

/-!
# What an engine call leaves alone

Whatever allowances exist, an engine call moves tokens of its sender and of the
engine only, and it changes the records of its sender only, but for a
liquidation (`engine_call_frame`). A liquidation of another user changes exactly
what `LiquidationEffect` lists.
-/

namespace AdvFoundry.Dsc

open Function

/-- The whole effect of `liquidate(badUser, token, debt)` on `badUser` and on its
sender, with `seized` the collateral and bonus at the price of the call. -/
structure LiquidationEffect (c : Ctx) (w w' : World) (badUser token : Address) (debt : Nat) :
    Prop where
  unhealthy : ∃ h, getHealthFactor c.env w.engine badUser = .ok h ∧ h ≤ MIN_HEALTH_FACTOR
  debt_falls : w'.engine.dscMinted badUser + debt = w.engine.dscMinted badUser
  collateral_falls : w'.engine.collateralToUser badUser token +
    seized (quoted c.env w.engine token) debt = w.engine.collateralToUser badUser token
  other_collateral : ∀ t, t ≠ token →
    w'.engine.collateralToUser badUser t = w.engine.collateralToUser badUser t
  sender_wallet : ∀ t, (w'.tokens t).balances c.sender + (if t = w.engine.dsc then debt else 0) =
    (w.tokens t).balances c.sender +
      (if t = token then seized (quoted c.env w.engine token) debt else 0)
  destroyed : (w'.tokens w.engine.dsc).totalSupply + debt = (w.tokens w.engine.dsc).totalSupply

namespace FrameLemmas

open PositionLemmas

variable {c : Ctx} {w w' w₁ : World} {u t : Address} {x : Unit}

/-- The wallet of `u`: balances and the allowances it gave. -/
def SameWallet (w w' : World) (u : Address) : Prop :=
  ∀ t, (w'.tokens t).balances u = (w.tokens t).balances u ∧
    (w'.tokens t).allowances u = (w.tokens t).allowances u

/-- A write to one token that keeps the wallet of `u` there keeps it. -/
theorem sameWallet_setToken {token : Address} {tk : ERC20} {w₀ : World}
    (htokens : w₀.tokens = w.tokens) (hb : tk.balances u = (w.tokens token).balances u)
    (ha : tk.allowances u = (w.tokens token).allowances u) :
    SameWallet w (w₀.setToken token tk) u := by
  intro t
  by_cases ht : t = token
  · subst ht
    simp [hb, ha]
  · simp [ht, htokens]

theorem sameWallet_move (hu : u ≠ c.sender) (hthis : u ≠ c.this) (h : Move c w w') :
    SameWallet w w' u := by
  cases h with
  | deposit _ | burn _ =>
    refine sameWallet_setToken rfl ?_ ?_
    · simp [credit_apply, debit_apply, hu, hthis]
    · simp [ERC20.spend_allowances_of_ne hu]
  | mint _ | reedem _ =>
    refine sameWallet_setToken rfl ?_ rfl
    simp [credit_apply, debit_apply, hu, hthis]

/-- The wallet of an account that neither calls nor is the engine. -/
theorem wallet_engine {op : EngineOp} (hu : u ≠ c.sender) (hthis : u ≠ c.this)
    (hop : op.exec c w = .ok (x, w')) : SameWallet w w' u := by
  refine engine_invariant (I := fun w' => SameWallet w w' u) ?_ hop fun _ => ⟨rfl, rfl⟩
  intro w₁ w₂ hmove hsame t
  have hstep := sameWallet_move hu hthis hmove t
  exact ⟨hstep.1.trans (hsame t).1, hstep.2.trans (hsame t).2⟩

/-- The records of others than the sender and the liquidated user. -/
theorem record_engine {op : EngineOp} (hu : u ≠ c.sender) (hop : op.exec c w = .ok (x, w'))
    (hnot : ∀ t d, op ≠ .liquidate u t d) : SameRecord w.engine w'.engine u := by
  cases op with
  | depositCollateral t a => exact record_deposit hu hop
  | mintDSC a => exact record_mint hu hop
  | depositCollateralAndMintDSC t a m =>
    obtain ⟨w₁, hd, hm⟩ := depositCollateralAndMintDSC_ok.mp hop
    exact (record_deposit hu hd).trans (record_mint hu hm)
  | reedemCollateral t a => exact record_reedem hu (reedemCollateral_ok.mp hop).2.2.1
  | reedemCollateralAndBurnDSC t a b =>
    obtain ⟨w₁, hb, hr⟩ := reedemCollateralAndBurnDSC_ok.mp hop
    exact (record_burn hu (burnDSC_ok.mp hb).2).trans
      (record_reedem hu (reedemCollateral_ok.mp hr).2.2.1)
  | burnDSC a => exact record_burn hu (burnDSC_ok.mp hop).2
  | liquidate b t d =>
    obtain ⟨-, -, _, -, -, _, -, w₁, hb, hr, -⟩ := liquidate_ok.mp hop
    have hub : u ≠ b := by
      intro he
      subst he
      exact hnot t d rfl
    exact (record_burn hub hb).trans (record_reedem hub hr)

end FrameLemmas

open FrameLemmas

/-- The effect of a liquidation by another account. -/
theorem liquidation_effect {c : Ctx} {w w' : World} {badUser token : Address} {debt : Nat} {x : Unit}
    (h : liquidate c badUser token debt w = .ok (x, w')) :
    LiquidationEffect c w w' badUser token debt := by
  obtain ⟨-, howed, start, hstart, hmin, _, hseizes, w₁, hburn, hreedem, -⟩ := liquidate_ok.mp h
  obtain ⟨-, hfunds, rfl⟩ := _burnDSC_ok.mp hburn
  obtain ⟨hrec, -, -, hheld, rfl⟩ := _reedemCollateral_ok.mp hreedem
  cases hseizes.total_eq
  refine ⟨⟨start, hstart, hmin⟩, ?_, ?_, ?_, ?_, ?_⟩
  · simp [reedemedWorld, burnedWorld, howed]
  · simpa [reedemedWorld, burnedWorld] using Nat.sub_add_cancel hrec
  · intro t ht
    simp [reedemedWorld, burnedWorld, ht]
  · -- the stablecoin falls by the debt, the seized token rises; they may be the same token
    intro t
    have hne := c.sender_ne
    rw [ERC20.spend_balances] at hfunds
    by_cases ht : t = token
    · subst ht
      by_cases hd : t = w.engine.dsc
      · subst hd
        simp [reedemedWorld, burnedWorld, debit_of_ne hne]
        omega
      · simp [reedemedWorld, burnedWorld, hd, debit_of_ne hne]
    · by_cases hd : t = w.engine.dsc
      · subst hd
        simp [reedemedWorld, burnedWorld, ht, hfunds]
      · simp [reedemedWorld, burnedWorld, ht, hd]
  · have hle := ERC20.balance_le_supply (w.tokens w.engine.dsc) c.sender
    rw [ERC20.spend_balances] at hfunds
    by_cases hd : w.engine.dsc = token
    · subst hd
      simp [reedemedWorld, burnedWorld]
      omega
    · simp [reedemedWorld, burnedWorld, hd]
      omega

/-- No engine call takes anything from an account that is neither its sender nor
the engine: wallet and approvals stay, and so do the records, unless the call
liquidates that account, with exactly the effect of a liquidation. -/
theorem engine_call_frame {c : Ctx} {op : EngineOp} {w w' : World} {u : Address}
    (hop : op.exec c w = .ok ((), w')) (hu : u ≠ c.sender) (hthis : u ≠ c.this) :
    (∀ t, (w'.tokens t).balances u = (w.tokens t).balances u) ∧
    (∀ t spender, (w'.tokens t).allowances u spender = (w.tokens t).allowances u spender) ∧
    ((∀ t d, op ≠ .liquidate u t d) →
      (∀ t, w'.engine.collateralToUser u t = w.engine.collateralToUser u t) ∧
        w'.engine.dscMinted u = w.engine.dscMinted u) ∧
    (∀ t d, op = .liquidate u t d → LiquidationEffect c w w' u t d) := by
  have hwallet := wallet_engine hu hthis hop
  refine ⟨fun t => (hwallet t).1, fun t spender => congrFun (hwallet t).2 spender,
    record_engine hu hop, ?_⟩
  rintro t d rfl
  exact liquidation_effect hop

/-- At sixteen hundred dollars the account `6` liquidates a tenth of the
borrower's debt: the borrower's wallet stays, and the position pays exactly the
seizure. -/
theorem engine_call_frame_liquidation :
    ∃ w', liquidate (liquidatorCtx price1600) 5 3 (10 ^ 20) (fundLiquidator.after openedWorld) =
        .ok ((), w') ∧
      (w'.tokens 2).balances 5 = ((fundLiquidator.after openedWorld).tokens 2).balances 5 ∧
      LiquidationEffect (liquidatorCtx price1600) (fundLiquidator.after openedWorld) w' 5 3
        (10 ^ 20) := by
  have hop : (EngineOp.liquidate 5 3 (10 ^ 20)).exec (liquidatorCtx price1600)
      (fundLiquidator.after openedWorld) = .ok ((), _) := Tx.ok_after (by decide +kernel)
  obtain ⟨hwallet, -, -, heffect⟩ := engine_call_frame (u := 5) hop (by decide) (by decide)
  exact ⟨_, hop, hwallet 2, heffect 3 (10 ^ 20) rfl⟩

end AdvFoundry.Dsc
