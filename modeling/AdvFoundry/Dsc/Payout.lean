import AdvFoundry.Dsc.Frame
import AdvFoundry.Dsc.Solvency
import Mathlib.Tactic.Ring

/-!
# What a liquidation pays and what it leaves

A liquidation pays `seized`: the covered debt converted at the price of the
feed, and a tenth of that on top, both rounded down. It is only stopped by the
strict comparison of two rounded health factors at its end.

Results:
1. `liquidation_payout`: the payment is at most 110% of the covered debt and
   short of it by less than two units of the token, and a liquidation in pieces
   never takes more than one for the whole.
2. `liquidation_keeps_backing`: a position worth its debt is worth its debt
   after any sequence of liquidations at the same prices.
-/

namespace AdvFoundry.Dsc

open SolvencyLemmas

/-! ## Arithmetic -/

namespace PayoutLemmas

variable {price debt : Nat}

/-- The bonus is a tenth, rounded down. -/
theorem seized_eq : seized price debt =
    collateralFor price debt + collateralFor price debt / 10 := by
  simp only [seized, LIQUIDATION_BONUS, LIQUIDATION_PRECISION]
  omega

/-- Both roundings are in favour of the position. -/
theorem seized_value_le (price debt : Nat) :
    price * ADDITIONAL_FEED_PRECISION * seized price debt * 10 ≤ 11 * debt * PRECISION := by
  have hbonus : seized price debt * 10 ≤ 11 * collateralFor price debt := by
    rw [seized_eq]
    omega
  have hfloor : price * ADDITIONAL_FEED_PRECISION * collateralFor price debt ≤ debt * PRECISION :=
    Nat.mul_div_le _ _
  calc price * ADDITIONAL_FEED_PRECISION * seized price debt * 10
      = price * ADDITIONAL_FEED_PRECISION * (seized price debt * 10) := Nat.mul_assoc ..
    _ ≤ price * ADDITIONAL_FEED_PRECISION * (11 * collateralFor price debt) :=
        Nat.mul_le_mul_left _ hbonus
    _ = 11 * (price * ADDITIONAL_FEED_PRECISION * collateralFor price debt) :=
        Nat.mul_left_comm ..
    _ ≤ 11 * (debt * PRECISION) := Nat.mul_le_mul_left _ hfloor
    _ = 11 * debt * PRECISION := (Nat.mul_assoc ..).symm

/-- The conversion loses less than one unit of the token, which costs eleven
tenths, and the bonus at most nine tenths of one. -/
theorem seized_value_lt (debt : Nat) (hprice : 0 < price * ADDITIONAL_FEED_PRECISION) :
    11 * debt * PRECISION <
      10 * (price * ADDITIONAL_FEED_PRECISION) * seized price debt +
        20 * (price * ADDITIONAL_FEED_PRECISION) := by
  have hbonus : 11 * collateralFor price debt ≤ 10 * seized price debt + 9 := by
    rw [seized_eq]
    omega
  have hfloor : debt * PRECISION <
      price * ADDITIONAL_FEED_PRECISION * (collateralFor price debt + 1) :=
    Nat.lt_mul_div_succ _ hprice
  calc 11 * debt * PRECISION
      = 11 * (debt * PRECISION) := Nat.mul_assoc ..
    _ < 11 * (price * ADDITIONAL_FEED_PRECISION * (collateralFor price debt + 1)) :=
        Nat.mul_lt_mul_of_pos_left hfloor (by decide)
    _ = price * ADDITIONAL_FEED_PRECISION * (11 * collateralFor price debt + 11) := by ring
    _ ≤ price * ADDITIONAL_FEED_PRECISION * (10 * seized price debt + 20) :=
        Nat.mul_le_mul_left _ (by omega)
    _ = 10 * (price * ADDITIONAL_FEED_PRECISION) * seized price debt +
          20 * (price * ADDITIONAL_FEED_PRECISION) := by ring

/-- Two liquidations pay at most what one for both debts pays. -/
theorem seized_add_le (price d d' : Nat) :
    seized price d + seized price d' ≤ seized price (d + d') := by
  have hfloor : collateralFor price d + collateralFor price d' ≤ collateralFor price (d + d') := by
    unfold collateralFor
    rw [Nat.add_mul]
    exact Nat.div_add_div_le_add_div
  rw [seized_eq, seized_eq, seized_eq]
  omega

theorem seized_sum_le (price : Nat) (debts : List Nat) :
    (debts.map (seized price)).sum ≤ seized price debts.sum := by
  induction debts with
  | nil => simp [seized, collateralFor]
  | cons d ds ih =>
    rw [List.map_cons, List.sum_cons, List.sum_cons]
    have hadd := seized_add_le price d ds.sum
    omega

/-- A rise of the health factor with less debt keeps a position worth its debt:
what the roundings hide is less than one unit of value. -/
theorem backed_of_healthFactor_lt {debt debt' value value' : Nat} (hless : debt' < debt)
    (hrise : healthFactor debt value < healthFactor debt' value') (hbacked : debt ≤ value) :
    debt' ≤ value' := by
  by_cases h0 : debt' = 0
  · omega
  have hpos : 0 < debt := by omega
  simp only [healthFactor, h0, if_false, Nat.ne_of_gt hpos, LIQUIDATION_THRESHOLD,
    LIQUIDATION_PRECISION] at hrise
  -- half the value, rounded down; at an odd value that equals the debt one unit is lost
  obtain ⟨half, hhalf⟩ : ∃ half, half = value * 50 / 100 := ⟨_, rfl⟩
  obtain ⟨half', hhalf'⟩ : ∃ half', half' = value' * 50 / 100 := ⟨_, rfl⟩
  rw [← hhalf, ← hhalf'] at hrise
  -- the rounded quotients compare strictly, so the exact ones do
  have hcross : half * debt' < half' * debt := by
    have hbelow := Nat.lt_mul_div_succ (half * PRECISION) hpos
    have habove : debt' * (half * PRECISION / debt + 1) ≤ half' * PRECISION :=
      Nat.le_trans (Nat.mul_le_mul_left _ hrise) (Nat.mul_div_le _ _)
    have hscaled : half * debt' * PRECISION < half' * debt * PRECISION :=
      calc half * debt' * PRECISION
          = debt' * (half * PRECISION) := by ring
        _ < debt' * (debt * (half * PRECISION / debt + 1)) :=
            Nat.mul_lt_mul_of_pos_left hbelow (Nat.pos_of_ne_zero h0)
        _ = debt * (debt' * (half * PRECISION / debt + 1)) := Nat.mul_left_comm ..
        _ ≤ debt * (half' * PRECISION) := Nat.mul_le_mul_left _ habove
        _ = half' * debt * PRECISION := by ring
    exact Nat.lt_of_mul_lt_mul_right hscaled
  by_contra hlost
  have hlow : debt ≤ 2 * half + 1 := by omega
  have hhigh : 2 * half' + 1 ≤ debt' := by omega
  have hbefore : debt * debt' ≤ 2 * (half * debt') + debt' :=
    calc debt * debt'
        ≤ (2 * half + 1) * debt' := Nat.mul_le_mul_right _ hlow
      _ = 2 * (half * debt') + debt' := by ring
  have hafter : 2 * (half' * debt) + debt ≤ debt * debt' :=
    calc 2 * (half' * debt) + debt
        = debt * (2 * half' + 1) := by ring
      _ ≤ debt * debt' := Nat.mul_le_mul_left _ hhigh
  omega

end PayoutLemmas

open PayoutLemmas

/-! ## 1. The payment -/

/-- The position of `u` in `t` since the engine `e`: all that was seized of it is
at most what one liquidation of the whole covered debt seizes. -/
structure PaidAtMost (price : Nat) (e : DSCEngine) (u t : Address) (w : World) : Prop where
  config : SameConfig e w.engine
  paid : ∃ covered, e.dscMinted u = w.engine.dscMinted u + covered ∧
    e.collateralToUser u t ≤ w.engine.collateralToUser u t + seized price covered

theorem paidAtMost_step {price : Nat} {e : DSCEngine} {this u t : Address} {w w' : World} {m : Msg}
    (h : Step this w m w')
    (hm : ∃ d, m.call = .engine (.liquidate u t d) ∧ quoted m.env e t = price)
    (hw : PaidAtMost price e u t w) : PaidAtMost price e u t w' := by
  obtain ⟨hne, h⟩ := h
  obtain ⟨d, hcall, hquoted⟩ := hm
  rw [hcall] at h
  have heffect := liquidation_effect h
  have hexec : (EngineOp.liquidate u t d).exec ⟨this, m.sender, m.env, hne⟩ w = .ok ((), w') := h
  have hconfig := config_engine hexec
  obtain ⟨covered, hcovered, hpaid⟩ := hw.paid
  refine ⟨hw.config.trans hconfig, covered + d, ?_, ?_⟩
  · have hfalls := heffect.debt_falls
    omega
  · have hfalls := heffect.collateral_falls
    have hadd := seized_add_le price covered d
    rw [quoted_congr hw.config.feeds, hquoted] at hfalls
    omega

/-- What `liquidate` pays for covering `d` is `seized price d`. Its value is at
most 110% of `d` and short of that by less than two units of the token, and no
sequence of liquidations seizes more than one liquidation of their sum. -/
theorem liquidation_payout {price : Nat} (hprice : 0 < price * ADDITIONAL_FEED_PRECISION) :
    (∀ (c : Ctx) (w w' : World) (u t : Address) (d : Nat),
      liquidate c u t d w = .ok ((), w') → quoted c.env w.engine t = price →
      w'.engine.collateralToUser u t + seized price d = w.engine.collateralToUser u t ∧
      (w'.tokens t).balances c.sender + (if t = w.engine.dsc then d else 0) =
        (w.tokens t).balances c.sender + seized price d) ∧
    (∀ d, price * ADDITIONAL_FEED_PRECISION * seized price d * 10 ≤ 11 * d * PRECISION) ∧
    (∀ d, 11 * d * PRECISION - 10 * (price * ADDITIONAL_FEED_PRECISION) * seized price d <
      20 * (price * ADDITIONAL_FEED_PRECISION)) ∧
    (∀ ds : List Nat, (ds.map (seized price)).sum ≤ seized price ds.sum) ∧
    ∀ (this u t : Address) (w w' : World) (msgs : List Msg), Run (Step this) w msgs w' →
      (∀ m ∈ msgs, ∃ d, m.call = .engine (.liquidate u t d) ∧ quoted m.env w.engine t = price) →
      ∃ covered, w.engine.dscMinted u = w'.engine.dscMinted u + covered ∧
        w.engine.collateralToUser u t ≤ w'.engine.collateralToUser u t + seized price covered := by
  refine ⟨?_, fun d => seized_value_le price d, fun d => ?_, seized_sum_le price, ?_⟩
  · intro c w w' u t d h hquoted
    have heffect := liquidation_effect h
    have hwallet := heffect.sender_wallet t
    rw [if_pos rfl] at hwallet
    rw [← hquoted]
    exact ⟨heffect.collateral_falls, hwallet⟩
  · have hshort := seized_value_lt d hprice
    omega
  · intro this u t w w' msgs hrun hmsgs
    have hstart : PaidAtMost price w.engine u t w := ⟨⟨rfl, rfl, rfl⟩, 0, by simp⟩
    exact (Run.invariant (I := PaidAtMost price w.engine u t)
      (C := fun m => ∃ d, m.call = .engine (.liquidate u t d) ∧ quoted m.env w.engine t = price)
      (fun _ _ _ hm hI hst => paidAtMost_step hst hm hI) hrun hmsgs hstart).paid

/-- At two thousand dollars a hundred dollars are worth `0.05` of a token, and
the liquidator is paid `0.055`. -/
theorem liquidation_payout_hundred :
    seized (2000 * 10 ^ 8) (10 ^ 20) = 55 * 10 ^ 15 ∧
    (2000 * 10 ^ 8) * ADDITIONAL_FEED_PRECISION * seized (2000 * 10 ^ 8) (10 ^ 20) * 10 ≤
      11 * 10 ^ 20 * PRECISION :=
  ⟨by decide, (liquidation_payout (by decide)).2.1 (10 ^ 20)⟩

/-! ## 2. The backing -/

/-- The position of `u` is worth at least its debt. -/
def Backed (env : Env) (e : DSCEngine) (u : Address) : Prop :=
  ∃ value, getAccountTotalCollateralInUSD env e u = .ok value ∧ e.dscMinted u ≤ value

/-- The calls that leave every position alone, and the liquidations. -/
def Call.onlyLiquidates : Call → Prop
  | engine (.liquidate _ _ _) => True
  | engine _ => False
  | _ => True

/-- Both blocks accept the feed of `t` at the price `P t`. -/
theorem sameQuote_atPrice {P : Address → Nat} {env env' : Env} {e e' : DSCEngine} {t : Address}
    (hP : AtPrice P e env) (hP' : AtPrice P e' env') (ht : t ∈ e.collateralTokens)
    (ht' : t ∈ e'.collateralTokens) : SameQuote env env' e e' t := by
  obtain ⟨round, hround, hprice⟩ := hP' t ht'
  refine ⟨round, hround, ?_⟩
  rw [quoted_eq hP ht]
  exact Int256.toUint256_of_nonneg hprice

/-- A liquidation leaves the records of everyone else alone, its sender's too. -/
theorem liquidate_record {c : Ctx} {w w' : World} {u b t : Address} {d : Nat} {x : Unit}
    (hub : u ≠ b) (h : liquidate c b t d w = .ok (x, w')) : SameRecord w.engine w'.engine u := by
  obtain ⟨-, -, _, -, -, _, -, w₁, hburn, hreedem, -⟩ := liquidate_ok.mp h
  exact (PositionLemmas.record_burn hub hburn).trans (PositionLemmas.record_reedem hub hreedem)

/-- A liquidation adds to nobody's collateral. -/
theorem liquidate_no_larger {c : Ctx} {w w' : World} {b t : Address} {d : Nat} {x : Unit}
    (h : liquidate c b t d w = .ok (x, w')) (u t' : Address) :
    w'.engine.collateralToUser u t' ≤ w.engine.collateralToUser u t' := by
  rcases eq_or_ne u b with rfl | hub
  · have heffect := liquidation_effect h
    by_cases ht : t' = t
    · have hfalls := heffect.collateral_falls
      rw [ht]
      omega
    · exact Nat.le_of_eq (heffect.other_collateral t' ht)
  · exact Nat.le_of_eq ((liquidate_record hub h).1 t')

/-- A liquidation keeps a position worth its debt at the prices of the call. -/
theorem value_covers_liquidate {c : Ctx} {w w' : World} {u t : Address} {d : Nat} {x : Unit}
    (h : liquidate c u t d w = .ok (x, w'))
    (hworth : w.engine.dscMinted u ≤ accountValue (quoted c.env w.engine) w.engine u) :
    w'.engine.dscMinted u ≤ accountValue (quoted c.env w'.engine) w'.engine u := by
  obtain ⟨hpos, -, start, hstart, -, _, -, w₁, -, -, final, hfinal, hlt⟩ := liquidate_ok.mp h
  have hfalls := (liquidation_effect h).debt_falls
  obtain ⟨rfl, -⟩ := getHealthFactor_ok hstart
  obtain ⟨rfl, -⟩ := getHealthFactor_ok hfinal
  exact backed_of_healthFactor_lt (by omega) hlt hworth

/-- The position of `u` is worth its debt at the prices `P`, and no larger than
in `e`. -/
structure BackedAt (P : Address → Nat) (e : DSCEngine) (u : Address) (w : World) : Prop where
  config : SameConfig e w.engine
  no_larger : ∀ t, w.engine.collateralToUser u t ≤ e.collateralToUser u t
  worth : w.engine.dscMinted u ≤ accountValue P w.engine u

theorem backedAt_step {P : Address → Nat} {e : DSCEngine} {this u : Address} {w w' : World} {m : Msg}
    (h : Step this w m w') (hm : m.call.onlyLiquidates ∧ AtPrice P e m.env)
    (hw : BackedAt P e u w) : BackedAt P e u w' := by
  obtain ⟨hne, h⟩ := h
  obtain ⟨honly, hP⟩ := hm
  rcases m with ⟨sender, env, call⟩
  cases call with
  | token t op | coin op | issue t a v | retire t v =>
    have heq := engine_eq_of_token (by intro op; simp) h
    exact ⟨heq ▸ hw.config, heq ▸ hw.no_larger, heq ▸ hw.worth⟩
  | engine op =>
    have hconfig := config_engine h
    have hP₁ := AtPrice.of_config hP hw.config
    have hP₂ := AtPrice.of_config hP₁ hconfig
    cases op with
    | depositCollateral _ _ | mintDSC _ | depositCollateralAndMintDSC _ _ _ | reedemCollateral _ _
    | reedemCollateralAndBurnDSC _ _ _ | burnDSC _ => exact honly.elim
    | liquidate b t d =>
      have h : liquidate ⟨this, sender, env, hne⟩ b t d w = .ok ((), w') := h
      refine ⟨hw.config.trans hconfig, ?_, ?_⟩
      · exact fun t' => Nat.le_trans (liquidate_no_larger h u t') (hw.no_larger t')
      · rcases eq_or_ne u b with rfl | hub
        · have hbefore : w.engine.dscMinted u ≤ accountValue (quoted env w.engine) w.engine u := by
            rw [accountValue_quoted hP₁]
            exact hw.worth
          have hafter := value_covers_liquidate h hbefore
          rwa [accountValue_quoted hP₂] at hafter
        · have hsame := liquidate_record hub h
          have hvalue : accountValue P w'.engine u = accountValue P w.engine u := by
            unfold accountValue
            rw [hconfig.tokens]
            exact congrArg List.sum (List.map_congr_left fun t' _ => by rw [hsame.1 t'])
          rw [hsame.2, hvalue]
          exact hw.worth

/-- A liquidation at the prices of its block, and any sequence of liquidations
while the prices stay, leave a position worth its debt when it was before. -/
theorem liquidation_keeps_backing :
    (∀ (c : Ctx) (w w' : World) (u t : Address) (d : Nat),
      liquidate c u t d w = .ok ((), w') → Backed c.env w.engine u → Backed c.env w'.engine u) ∧
    ∀ (this : Address) (P : Address → Nat) (w w' : World) (msgs : List Msg),
      Run (Step this) w msgs w' →
      (∀ m ∈ msgs, m.call.onlyLiquidates ∧ AtPrice P w.engine m.env) →
      ∀ (u : Address) (env env' : Env), AtPrice P w.engine env → AtPrice P w.engine env' →
        Backed env w.engine u → Backed env' w'.engine u := by
  constructor
  · rintro c w w' u t d h ⟨value, hvalue, hworth⟩
    obtain ⟨-, -, _, -, -, _, -, w₁, -, -, final, hfinal, -⟩ := liquidate_ok.mp h
    obtain ⟨value', hvalue'⟩ := getHealthFactor_total hfinal
    refine ⟨value', hvalue', ?_⟩
    rw [getAccountTotalCollateralInUSD_ok hvalue] at hworth
    rw [getAccountTotalCollateralInUSD_ok hvalue']
    exact value_covers_liquidate h hworth
  · rintro this P w w' msgs hrun hmsgs u env env' hP hP' ⟨value, hvalue, hworth⟩
    rw [getAccountTotalCollateralInUSD_ok hvalue, accountValue_quoted hP] at hworth
    have hstart : BackedAt P w.engine u w := ⟨⟨rfl, rfl, rfl⟩, fun _ => Nat.le_refl _, hworth⟩
    have hend := Run.invariant (I := BackedAt P w.engine u)
      (C := fun m => m.call.onlyLiquidates ∧ AtPrice P w.engine m.env)
      (fun _ _ _ hm hI hst => backedAt_step hst hm hI) hrun hmsgs hstart
    have hP'' := AtPrice.of_config hP' hend.config
    -- the smaller position still has a value at these prices
    have hquotes : ∀ t ∈ w.engine.collateralTokens, SameQuote env env' w.engine w'.engine t :=
      fun t ht => sameQuote_atPrice hP hP'' ht (hend.config.tokens ▸ ht)
    obtain ⟨value', hvalue', -⟩ := getAccountTotalCollateralInUSD_mono hvalue hend.config.tokens
      hquotes hend.no_larger
    refine ⟨value', hvalue', ?_⟩
    rw [getAccountTotalCollateralInUSD_ok hvalue', accountValue_quoted hP'']
    exact hend.worth

/-- At sixteen hundred dollars the account `6` liquidates a tenth of the
borrower's thousand: the position is still worth its debt. -/
theorem liquidation_keeps_backing_tenth :
    ∃ w', liquidate (liquidatorCtx price1600) 5 3 (10 ^ 20) (fundLiquidator.after openedWorld) =
        .ok ((), w') ∧ Backed (sampleEnv price1600) w'.engine 5 := by
  have hop : liquidate (liquidatorCtx price1600) 5 3 (10 ^ 20) (fundLiquidator.after openedWorld) =
      .ok ((), _) := Tx.ok_after (by decide +kernel)
  have hbacked : Backed (sampleEnv price1600) (fundLiquidator.after openedWorld).engine 5 :=
    ⟨1600 * 10 ^ 18, by decide +kernel, by decide +kernel⟩
  exact ⟨_, hop, liquidation_keeps_backing.1 _ _ _ _ _ _ hop hbacked⟩

end AdvFoundry.Dsc
