import AdvFoundry.Dsc.Positions

/-!
# Who can be liquidated

`_checkHealthFactorAndRevert` accepts a health factor equal to the minimum;
`liquidate` refuses only factors above it. The two tests overlap on the
positions whose health factor is exactly the minimum.

Results:
1. `liquidate_returns_iff`: `liquidate` in terms of the world before the call.
2. `healthy_liquidation_reverts_iff`: for a user the engine accepts as healthy,
   `liquidate` reverts unless the health factor is exactly the minimum and the
   liquidator can settle.
3. `boundary_position_liquidated`: a user who borrowed the limit is accepted as
   healthy and liquidated in the same block.
-/

namespace AdvFoundry.Dsc

open Function

/-- The engine's records after `badUser` had `debt` covered for `total` of
`token`. -/
def settledEngine (e : DSCEngine) (badUser token : Address) (debt total : Nat) : DSCEngine :=
  { e with
    dscMinted := update e.dscMinted badUser (e.dscMinted badUser - debt)
    collateralToUser := update e.collateralToUser badUser
      (update (e.collateralToUser badUser) token (e.collateralToUser badUser token - total)) }

/-- What `liquidate(badUser, token, debt)` asks for besides the health factor it
starts from, all in the world before the call: a positive amount that is owed, a
fresh positive price and amounts that fit, a caller who holds and approved the
stablecoin, a position and an engine that hold what is seized, and a health
factor that ends above `floor`. -/
structure CanSettle (c : Ctx) (w : World) (badUser token : Address) (debt floor : Nat) : Prop where
  pos : 0 < debt
  owed : debt ≤ w.engine.dscMinted badUser
  seizes : Seizes c w token debt (seized (quoted c.env w.engine token) debt)
  burn : CanBurn c w debt badUser c.sender
  funds : debt ≤ (w.tokens w.engine.dsc).balances c.sender
  recorded : seized (quoted c.env w.engine token) debt ≤ w.engine.collateralToUser badUser token
  held : seized (quoted c.env w.engine token) debt ≤ (w.tokens token).balances c.this
  raised : ∃ final, getHealthFactor c.env
    (settledEngine w.engine badUser token debt (seized (quoted c.env w.engine token) debt))
    badUser = .ok final ∧ floor < final

namespace LiquidationLemmas

variable {c : Ctx} {w : World} {badUser token : Address} {debt total : Nat}

/-- Burning a caller's stablecoin does not touch what the engine holds. -/
theorem burned_held
    {h : debt ≤ ((w.tokens w.engine.dsc).spend c.sender c.this debt).balances c.sender} :
    ((burnedWorld w c.this badUser c.sender debt h).tokens token).balances c.this =
      (w.tokens token).balances c.this := by
  by_cases ht : token = w.engine.dsc
  · subst ht
    simp [burnedWorld, debit_of_ne c.sender_ne.symm]
  · simp [burnedWorld, ht]

/-- The records after the two moves of a liquidation. -/
theorem settled_engine
    {h : debt ≤ ((w.tokens w.engine.dsc).spend c.sender c.this debt).balances c.sender}
    {h' : total ≤ ((burnedWorld w c.this badUser c.sender debt h).tokens token).balances c.this} :
    (reedemedWorld (burnedWorld w c.this badUser c.sender debt h) c.this badUser c.sender token total
      h').engine = settledEngine w.engine badUser token debt total := rfl

end LiquidationLemmas

open LiquidationLemmas

/-- `liquidate` returns exactly when the user's health factor is at most the
minimum and the caller can settle from it. -/
theorem liquidate_returns_iff {c : Ctx} {w : World} {badUser token : Address} {debt : Nat} :
    (∃ w', liquidate c badUser token debt w = .ok ((), w')) ↔
      ∃ start, getHealthFactor c.env w.engine badUser = .ok start ∧ start ≤ MIN_HEALTH_FACTOR ∧
        CanSettle c w badUser token debt start := by
  constructor
  · rintro ⟨w', h⟩
    obtain ⟨hpos, howed, start, hstart, hmin, _, hseizes, w₁, hburn, hreedem, final, hfinal, hlt⟩ :=
      liquidate_ok.mp h
    obtain ⟨hcan, hfunds, rfl⟩ := _burnDSC_ok.mp hburn
    obtain ⟨hrec, -, -, hheld, rfl⟩ := _reedemCollateral_ok.mp hreedem
    cases hseizes.total_eq
    refine ⟨start, hstart, hmin, hpos, howed, hseizes, hcan, ?_, hrec, ?_, final, hfinal, hlt⟩
    · simpa using hfunds
    · rwa [burned_held] at hheld
  · rintro ⟨start, hstart, hmin, hpos, howed, hseizes, hcan, hfunds, hrec, hheld, final, hfinal, hlt⟩
    have hfunds' : debt ≤
        ((w.tokens w.engine.dsc).spend c.sender c.this debt).balances c.sender := by
      simpa using hfunds
    have hheld' : seized (quoted c.env w.engine token) debt ≤
        ((burnedWorld w c.this badUser c.sender debt hfunds').tokens token).balances c.this := by
      rwa [burned_held]
    refine ⟨_, liquidate_ok.mpr ⟨hpos, howed, start, hstart, hmin, _, hseizes, _,
      _burnDSC_ok.mpr ⟨hcan, hfunds', rfl⟩,
      _reedemCollateral_ok.mpr ⟨hrec, hcan.this_ne, hcan.payer_ne, hheld', rfl⟩, final, ?_, hlt⟩⟩
    rw [settled_engine]
    exact hfinal

/-- A liquidation of a user the engine accepts as healthy reverts, except at a
health factor of exactly the minimum, and there it goes through whenever the
caller can settle. -/
theorem healthy_liquidation_reverts_iff {c : Ctx} {w : World} {badUser token : Address}
    {debt : Nat}
    (hcheck : _checkHealthFactorAndRevert c.env w.engine badUser = .ok ()) :
    (∃ e, liquidate c badUser token debt w = .error e) ↔
      getHealthFactor c.env w.engine badUser ≠ .ok MIN_HEALTH_FACTOR ∨
        ¬ CanSettle c w badUser token debt MIN_HEALTH_FACTOR := by
  obtain ⟨hf, hhf, hmin⟩ := _checkHealthFactorAndRevert_ok.mp hcheck
  -- a call that does not revert returns, and then both tests passed
  have hsplit : (∃ e, liquidate c badUser token debt w = .error e) ↔
      ¬ ∃ w', liquidate c badUser token debt w = .ok ((), w') := by
    cases liquidate c badUser token debt w with
    | error e => simp
    | ok p => obtain ⟨⟨⟩, w'⟩ := p; simp
  rw [hsplit, liquidate_returns_iff, ← not_and_or, not_iff_not]
  constructor
  · rintro ⟨start, hstart, hle, hcan⟩
    rw [hhf] at hstart
    cases hstart
    have heq : hf = MIN_HEALTH_FACTOR := Nat.le_antisymm hle hmin
    exact ⟨heq ▸ hhf, heq ▸ hcan⟩
  · rintro ⟨hstart, hcan⟩
    exact ⟨MIN_HEALTH_FACTOR, hstart, Nat.le_refl _, hcan⟩

/-- A position worth four times its debt: no one can liquidate it. -/
theorem doubly_healthy_liquidation_reverts :
    ∃ e, liquidate (liquidatorCtx price2000) 5 3 (10 ^ 20)
      ((burnDSC (borrowerCtx price2000) (5 * 10 ^ 20)).after openedWorld) = .error e :=
  (healthy_liquidation_reverts_iff (by decide +kernel)).mpr (.inl (by decide +kernel))

/-- At the unchanged price the engine accepts the borrower as healthy, and the
account `6` liquidates a tenth of its debt. -/
theorem boundary_position_liquidated :
    ¬ ∀ (c : Ctx) (w : World) (badUser token : Address) (debt : Nat),
      _checkHealthFactorAndRevert c.env w.engine badUser = .ok () →
      ∃ e, liquidate c badUser token debt w = .error e := by
  intro hall
  obtain ⟨e, he⟩ := hall (liquidatorCtx price2000) (fundLiquidator.after openedWorld) 5 3 (10 ^ 20)
    (by decide +kernel)
  have hok : liquidate (liquidatorCtx price2000) 5 3 (10 ^ 20) (fundLiquidator.after openedWorld) =
      .ok ((), _) := Tx.ok_after (by decide +kernel)
  rw [hok] at he
  cases he

end AdvFoundry.Dsc
