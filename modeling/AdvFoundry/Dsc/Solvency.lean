import AdvFoundry.Dsc.Custody
import AdvFoundry.Dsc.Supply

/-!
# Over-collateralisation at fixed prices

While every feed answers one fixed price, every user holds twice the recorded
debt (`solvent_step`), because a call improves a position, ends with the health
check, or is a liquidation that raised a health factor which was at least the
minimum before. The sums over all users then give `overcollateralised`: the
engine holds twice the supply of the stablecoin. So it holds the supply once
when every price has halved (`halving_covered`).
-/

namespace AdvFoundry.Dsc

/-- Every listed feed is fresh and answers the price `P`. -/
def AtPrice (P : Address → Nat) (e : DSCEngine) (env : Env) : Prop :=
  ∀ t ∈ e.collateralTokens, ∃ round,
    getLatestRoundDataAndRevertIfStale env (e.priceFeeds t) = .ok round ∧ round.answer.val = P t

/-- Every user holds collateral worth twice the recorded debt. -/
structure Solvent (P : Address → Nat) (e₀ : DSCEngine) (w : World) : Prop where
  config : SameConfig e₀ w.engine
  covered : ∀ u, 2 * w.engine.dscMinted u ≤ accountValue P w.engine u

namespace SolvencyLemmas

variable {P : Address → Nat} {env : Env} {e e' : DSCEngine} {t u : Address}

theorem quoted_eq (hP : AtPrice P e env) (ht : t ∈ e.collateralTokens) : quoted env e t = P t := by
  obtain ⟨round, hround, hval⟩ := hP t ht
  simp only [quoted, hround]
  exact Int256.toUint256_of_nonneg hval

theorem accountValue_quoted (hP : AtPrice P e env) :
    accountValue (quoted env e) e u = accountValue P e u := by
  unfold accountValue
  rw [List.map_congr_left fun t ht => by rw [quoted_eq hP ht]]

theorem AtPrice.of_config (hP : AtPrice P e env) (h : SameConfig e e') : AtPrice P e' env := by
  intro t ht
  rw [h.feeds]
  rw [h.tokens] at ht
  exact hP t ht

/-- At the fixed price, a health factor of at least the minimum is cover for
twice the debt. -/
theorem covered_iff (hP : AtPrice P e env) {hf : Nat} (h : getHealthFactor env e u = .ok hf) :
    MIN_HEALTH_FACTOR ≤ hf ↔ 2 * e.dscMinted u ≤ accountValue P e u := by
  obtain ⟨rfl, -⟩ := getHealthFactor_ok h
  rw [accountValue_quoted hP]
  exact min_le_healthFactor_iff

end SolvencyLemmas

open SolvencyLemmas

/-- At the fixed price, one transaction keeps every user covered. -/
theorem solvent_step {P : Address → Nat} {this : Address} {e₀ : DSCEngine} {w w' : World} {m : Msg}
    (h : Step this w m w') (hP : AtPrice P e₀ m.env) (hw : Solvent P e₀ w) :
    Solvent P e₀ w' := by
  obtain ⟨hne, h⟩ := h
  rcases m with ⟨sender, env, call⟩
  cases call with
  | engine op =>
    have hsame := config_engine h
    have hP₁ := AtPrice.of_config hP hw.config
    have hP₂ := AtPrice.of_config hP₁ hsame
    refine ⟨hw.config.trans hsame, fun u => ?_⟩
    have hcovered := hw.covered u
    rcases position_cases h u with himp | ⟨-, hcheck⟩ |
      ⟨t, d, start, final, -, hstart, -, hfinal, hlt⟩
    · have hvalue : accountValue P w.engine u ≤ accountValue P w'.engine u :=
        accountValue_mono hsame.tokens himp.1
      have hless := himp.2
      omega
    · obtain ⟨hf, hhf, hmin⟩ := _checkHealthFactorAndRevert_ok.mp hcheck
      exact (covered_iff hP₂ hhf).mp hmin
    · -- the liquidated user was covered, so the risen health factor is above the minimum
      have hbefore := (covered_iff hP₁ hstart).mpr hcovered
      exact (covered_iff hP₂ hfinal).mp (Nat.le_trans hbefore (Nat.le_of_lt hlt))
  | token t op | coin op | issue t a v | retire t v =>
    have heq := engine_eq_of_token (by intro op; simp) h
    exact ⟨heq ▸ hw.config, heq ▸ hw.covered⟩

theorem solvent_run {P : Address → Nat} {this : Address} {w₀ w : World} {msgs : List Msg}
    (h₀ : Deployed this w₀) (hP : ∀ m ∈ msgs, AtPrice P w₀.engine m.env)
    (hrun : Run (Step this) w₀ msgs w) : Solvent P w₀.engine w := by
  obtain ⟨tokens, feeds, hbuilt⟩ := h₀.built
  obtain ⟨-, hminted, -⟩ := constructor_ok hbuilt
  have hstart : Solvent P w₀.engine w₀ := ⟨⟨rfl, rfl, rfl⟩, fun u => by simp [hminted]⟩
  exact Run.invariant (I := Solvent P w₀.engine) (C := fun m => AtPrice P w₀.engine m.env)
    (fun _ _ _ hm hI hst => solvent_step hst hm hI) hrun hP hstart

/-- While the feeds answer the prices `P`, the engine holds twice the supply. -/
theorem cover_run {P : Address → Nat} {this : Address} {w₀ w : World} {msgs : List Msg}
    (h₀ : Deployed this w₀) (hcoin : OwnsCoin this w₀)
    (hP : ∀ m ∈ msgs, AtPrice P w₀.engine m.env) (hrun : Run (Step this) w₀ msgs w) :
    2 * (w.tokens w.engine.dsc).totalSupply ≤
      (w.engine.collateralTokens.map fun t =>
        valueInUSD (P t) ((w.tokens t).balances this)).sum := by
  have hcovered := (solvent_run h₀ hP hrun).covered
  have hdebt := supply_run h₀ hcoin hrun
  rw [hdebt.dsc_eq]
  calc 2 * (w.tokens w₀.engine.dsc).totalSupply
      ≤ 2 * ∑ u, w.engine.dscMinted u := by
        rw [hdebt.debt]
        omega
    _ = ∑ u, 2 * w.engine.dscMinted u := Finset.mul_sum ..
    _ ≤ ∑ u, accountValue P w.engine u := Finset.sum_le_sum fun u _ => hcovered u
    _ ≤ (w.engine.collateralTokens.map fun t =>
          valueInUSD (P t) (∑ u, w.engine.collateralToUser u t)).sum := sum_accountValue_le P w.engine
    _ ≤ (w.engine.collateralTokens.map fun t =>
          valueInUSD (P t) ((w.tokens t).balances this)).sum :=
        List.sum_le_sum fun t _ => valueInUSD_mono (custody_run h₀ hrun).covers

/-- In every world reached while the feeds answer the prices `P`, every user
holds twice the recorded debt, and the engine holds twice the supply. -/
theorem overcollateralised {P : Address → Nat} {this : Address} {w₀ w : World} {msgs : List Msg}
    (h₀ : Deployed this w₀) (hcoin : OwnsCoin this w₀)
    (hP : ∀ m ∈ msgs, AtPrice P w₀.engine m.env) (hrun : Run (Step this) w₀ msgs w) :
    (∀ u, 2 * w.engine.dscMinted u ≤ accountValue P w.engine u) ∧
      2 * (w.tokens w.engine.dsc).totalSupply ≤
        (w.engine.collateralTokens.map fun t =>
          valueInUSD (P t) ((w.tokens t).balances this)).sum :=
  ⟨(solvent_run h₀ hP hrun).covered, cover_run h₀ hcoin hP hrun⟩

/-- The sample run is at two thousand dollars throughout. -/
theorem sampleRun_atPrice : ∀ m ∈ burnFromRun.take 2,
    AtPrice (fun _ => 2000 * 10 ^ 8) sampleWorld.engine m.env := by
  intro m hm t ht
  have henv : m.env = sampleEnv price2000 := by
    rcases List.mem_pair.mp hm with rfl | rfl <;> rfl
  rw [henv, List.mem_singleton.mp ht]
  exact ⟨_, sampleEnv_fresh price2000, rfl⟩

/-- A deposit of one token and a loan of a thousand dollars at two thousand. -/
theorem overcollateralised_opened :
    ∃ w, Run (Step 1) sampleWorld (burnFromRun.take 2) w ∧ w.engine.dscMinted 5 = 10 ^ 21 ∧
      2 * (w.tokens w.engine.dsc).totalSupply ≤
        (w.engine.collateralTokens.map fun t =>
          valueInUSD (2000 * 10 ^ 8) ((w.tokens t).balances 1)).sum := by
  have hrun : Run (Step 1) sampleWorld (burnFromRun.take 2) _ :=
    Run.of_foldlM (fun _ _ _ => step_of_next) (Option.some_get (by decide +kernel)).symm
  exact ⟨_, hrun, by decide +kernel,
    (overcollateralised sampleWorld_deployed ⟨rfl, by decide +kernel⟩ sampleRun_atPrice hrun).2⟩

/-! ## A crash of the prices -/

/-- Half the price is half the value, up to one unit of rounding. -/
theorem valueInUSD_halved {price price' : Nat} (amount : Nat) (h : price ≤ 2 * price') :
    valueInUSD price amount ≤ 2 * valueInUSD price' amount + 1 := by
  unfold valueInUSD
  have hscaled : price * ADDITIONAL_FEED_PRECISION * amount ≤
      2 * (price' * ADDITIONAL_FEED_PRECISION * amount) := by
    rw [← Nat.mul_assoc, ← Nat.mul_assoc]
    exact Nat.mul_le_mul_right _ (Nat.mul_le_mul_right _ h)
  simp only [PRECISION] at *
  omega

/-- Over a list of tokens, one unit each. -/
theorem sum_valueInUSD_halved {P P' : Address → Nat} {tokens : List Address}
    (amount : Address → Nat) (h : ∀ t ∈ tokens, P t ≤ 2 * P' t) :
    (tokens.map fun t => valueInUSD (P t) (amount t)).sum ≤
      2 * (tokens.map fun t => valueInUSD (P' t) (amount t)).sum + tokens.length := by
  induction tokens with
  | nil => simp
  | cons t ts ih =>
    have hhead := valueInUSD_halved (amount t) (h t List.mem_cons_self)
    have htail := ih fun t' ht' => h t' (List.mem_cons_of_mem t ht')
    simp only [List.map_cons, List.sum_cons, List.length_cons]
    omega

/-- After any run at the prices `P`, the engine's collateral at prices `P'` that
are at least half of them covers the supply, up to one unit of rounding for each
token but one. -/
theorem halving_covered {P P' : Address → Nat} {this : Address} {w₀ w : World} {msgs : List Msg}
    (h₀ : Deployed this w₀) (hcoin : OwnsCoin this w₀)
    (hP : ∀ m ∈ msgs, AtPrice P w₀.engine m.env) (hrun : Run (Step this) w₀ msgs w)
    (hsome : w.engine.collateralTokens ≠ [])
    (hhalf : ∀ t ∈ w.engine.collateralTokens, P t ≤ 2 * P' t) :
    (w.tokens w.engine.dsc).totalSupply ≤
      (w.engine.collateralTokens.map fun t =>
        valueInUSD (P' t) ((w.tokens t).balances this)).sum +
          (w.engine.collateralTokens.length - 1) := by
  have hcover := cover_run h₀ hcoin hP hrun
  have hlost := sum_valueInUSD_halved (fun t => (w.tokens t).balances this) hhalf
  have hlength := List.length_pos_iff.mpr hsome
  omega

/-- At a thousand dollars the collateral of the sample run is worth its loan. -/
theorem halving_covered_opened :
    ∃ w, Run (Step 1) sampleWorld (burnFromRun.take 2) w ∧
      (w.tokens w.engine.dsc).totalSupply = 10 ^ 21 ∧
      (w.tokens w.engine.dsc).totalSupply ≤
        (w.engine.collateralTokens.map fun t =>
          valueInUSD (1000 * 10 ^ 8) ((w.tokens t).balances 1)).sum +
            (w.engine.collateralTokens.length - 1) := by
  have hrun : Run (Step 1) sampleWorld (burnFromRun.take 2) _ :=
    Run.of_foldlM (fun _ _ _ => step_of_next) (Option.some_get (by decide +kernel)).symm
  exact ⟨_, hrun, by decide +kernel,
    halving_covered sampleWorld_deployed ⟨rfl, by decide +kernel⟩ sampleRun_atPrice hrun
      (by decide +kernel) fun _ _ => by decide⟩

end AdvFoundry.Dsc
