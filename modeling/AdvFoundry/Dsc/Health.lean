import AdvFoundry.Dsc.Engine
import Mathlib.Algebra.BigOperators.Fin
import Mathlib.Algebra.Order.BigOperators.Group.List

/-!
# Values and health factors

What the engine's view functions compute, as functions on natural numbers, and
the arithmetic of the three nested floor divisions: the value of a position is
monotone in its collateral and superadditive over positions, and the health
factor reaches the minimum exactly when the position is worth twice its debt.
-/

namespace AdvFoundry.Dsc

/-! ## The numbers -/

/-- `getValueInUSD` at a given price. -/
def valueInUSD (price amount : Nat) : Nat :=
  price * ADDITIONAL_FEED_PRECISION * amount / PRECISION

/-- `getAccountTotalCollateralInUSD` at given prices. -/
def accountValue (price : Address → Nat) (e : DSCEngine) (user : Address) : Nat :=
  (e.collateralTokens.map fun t => valueInUSD (price t) (e.collateralToUser user t)).sum

/-- `_calculateHealthFactor`. -/
def healthFactor (minted value : Nat) : Nat :=
  if minted = 0 then uintMax
  else value * LIQUIDATION_THRESHOLD / LIQUIDATION_PRECISION * PRECISION / minted

/-- `_convertDscToCollateral` at a given price. -/
def collateralFor (price debt : Nat) : Nat :=
  debt * PRECISION / (price * ADDITIONAL_FEED_PRECISION)

/-- What `liquidate` takes for covering `debt`: the collateral and the bonus. -/
def seized (price debt : Nat) : Nat :=
  collateralFor price debt +
    collateralFor price debt * LIQUIDATION_BONUS / LIQUIDATION_PRECISION

/-- The price an accepted feed of `token` answers, as `uint256`; `0` when the
feed is rejected. -/
def quoted (env : Env) (e : DSCEngine) (token : Address) : Nat :=
  match getLatestRoundDataAndRevertIfStale env (e.priceFeeds token) with
  | .ok round => round.answer.toUint256
  | .error _ => 0

/-! ## Arithmetic -/

theorem valueInUSD_mono {price amount amount' : Nat} (h : amount ≤ amount') :
    valueInUSD price amount ≤ valueInUSD price amount' :=
  Nat.div_le_div_right (Nat.mul_le_mul_left _ h)

theorem valueInUSD_add_le (price a b : Nat) :
    valueInUSD price a + valueInUSD price b ≤ valueInUSD price (a + b) := by
  unfold valueInUSD
  rw [Nat.mul_add]
  exact Nat.div_add_div_le_add_div

/-- The floored values of any family of deposits sum to at most the floored
value of the whole. -/
theorem sum_valueInUSD_le {ι : Type} (s : Finset ι) (price : Nat) (amount : ι → Nat) :
    ∑ i ∈ s, valueInUSD price (amount i) ≤ valueInUSD price (∑ i ∈ s, amount i) := by
  induction s using Finset.cons_induction with
  | empty => simp
  | cons i s hi ih =>
    rw [Finset.sum_cons, Finset.sum_cons]
    have hadd := valueInUSD_add_le price (amount i) (∑ j ∈ s, amount j)
    omega

/-- A position is healthy exactly when its value is twice its debt. -/
theorem min_le_healthFactor_iff {minted value : Nat} :
    MIN_HEALTH_FACTOR ≤ healthFactor minted value ↔ 2 * minted ≤ value := by
  unfold healthFactor
  split
  · next h =>
    subst h
    simp [MIN_HEALTH_FACTOR, uintMax]
  · next h =>
    rw [Nat.le_div_iff_mul_le (Nat.pos_of_ne_zero h)]
    simp only [MIN_HEALTH_FACTOR, PRECISION, LIQUIDATION_THRESHOLD, LIQUIDATION_PRECISION]
    omega

theorem healthFactor_mono {minted value value' : Nat} (h : value ≤ value') :
    healthFactor minted value ≤ healthFactor minted value' := by
  unfold healthFactor
  split
  · exact Nat.le_refl _
  · have hscaled : value * LIQUIDATION_THRESHOLD / LIQUIDATION_PRECISION ≤
        value' * LIQUIDATION_THRESHOLD / LIQUIDATION_PRECISION :=
      Nat.div_le_div_right (Nat.mul_le_mul_right _ h)
    exact Nat.div_le_div_right (Nat.mul_le_mul_right _ hscaled)

/-- Less debt never lowers the health factor, as long as the number before is
one the engine could compute. -/
theorem healthFactor_anti {minted minted' value : Nat} (h : minted' ≤ minted)
    (hmax : healthFactor minted value ≤ uintMax) :
    healthFactor minted value ≤ healthFactor minted' value := by
  by_cases h0 : minted' = 0
  · simpa [healthFactor, h0] using hmax
  · have hm : minted ≠ 0 := by omega
    simp only [healthFactor, h0, hm, if_false]
    exact Nat.div_le_div_left h (Nat.pos_of_ne_zero h0)

/-- More collateral of any token never lowers the value of a position. -/
theorem accountValue_mono {price : Address → Nat} {e e' : DSCEngine} {user : Address}
    (htokens : e'.collateralTokens = e.collateralTokens)
    (h : ∀ t, e.collateralToUser user t ≤ e'.collateralToUser user t) :
    accountValue price e user ≤ accountValue price e' user := by
  unfold accountValue
  rw [htokens]
  exact List.sum_le_sum fun t _ => valueInUSD_mono (h t)

/-- The positions together are worth at most what all recorded collateral is. -/
theorem sum_accountValue_le (price : Address → Nat) (e : DSCEngine) :
    ∑ u, accountValue price e u ≤
      (e.collateralTokens.map fun t => valueInUSD (price t) (∑ u, e.collateralToUser u t)).sum := by
  unfold accountValue
  induction e.collateralTokens with
  | nil => simp
  | cons t ts ih =>
    simp only [List.map_cons, List.sum_cons, Finset.sum_add_distrib]
    have ht := sum_valueInUSD_le Finset.univ (price t) fun u => e.collateralToUser u t
    omega

/-! ## The view functions compute these numbers -/

section Views

variable {env : Env} {e : DSCEngine} {token user : Address} {amount r : Nat}

theorem getValueInUSD_ok (h : getValueInUSD env e token amount = .ok r) :
    r = valueInUSD (quoted env e token) amount := by
  simp only [getValueInUSD, Result.bind_ok, mulU_ok, divU_ok] at h
  obtain ⟨round, hround, _, ⟨-, rfl⟩, _, ⟨-, rfl⟩, -, rfl⟩ := h
  simp [quoted, hround, valueInUSD]

/-- The loop adds the values of the listed tokens to its accumulator. -/
theorem total_loop_ok {tokens : List Address} {total : Nat}
    (h : tokens.foldlM (fun totalCollateralInUSD token => do
      let value ← getValueInUSD env e token (e.collateralToUser user token)
      addU totalCollateralInUSD value) total = .ok r) :
    r = total + (tokens.map fun t =>
      valueInUSD (quoted env e t) (e.collateralToUser user t)).sum := by
  induction tokens generalizing total with
  | nil =>
    simp only [List.foldlM_nil, Result.pure_ok] at h
    simp [h]
  | cons t ts ih =>
    simp only [List.foldlM_cons, Result.bind_ok, addU_ok] at h
    obtain ⟨_, ⟨v, hv, -, rfl⟩, hrest⟩ := h
    have hvalue := getValueInUSD_ok hv
    rw [ih hrest, hvalue, List.map_cons, List.sum_cons]
    omega

theorem getAccountTotalCollateralInUSD_ok
    (h : getAccountTotalCollateralInUSD env e user = .ok r) :
    r = accountValue (quoted env e) e user := by
  have htotal := total_loop_ok h
  simpa [accountValue] using htotal

theorem _calculateHealthFactor_ok {minted value : Nat}
    (h : _calculateHealthFactor minted value = .ok r) :
    r = healthFactor minted value ∧ r ≤ uintMax := by
  unfold _calculateHealthFactor at h
  split at h
  · next h0 =>
    simp only [Result.pure_ok] at h
    simp [healthFactor, h0, h]
  · next h0 =>
    simp only [Result.bind_ok, mulU_ok, divU_ok] at h
    obtain ⟨_, ⟨-, rfl⟩, _, ⟨-, rfl⟩, _, ⟨hlt, rfl⟩, -, rfl⟩ := h
    refine ⟨by simp [healthFactor, h0], ?_⟩
    have hdiv := Nat.div_le_self
      (value * LIQUIDATION_THRESHOLD / LIQUIDATION_PRECISION * PRECISION) minted
    simp only [uintSize, uintMax] at *
    omega

/-- The health factor of a user, when the engine can compute it. -/
theorem getHealthFactor_ok (h : getHealthFactor env e user = .ok r) :
    r = healthFactor (e.dscMinted user) (accountValue (quoted env e) e user) ∧ r ≤ uintMax := by
  simp only [getHealthFactor, _getAccountInformation, Result.bind_ok, Result.pure_ok] at h
  obtain ⟨_, ⟨v, hv, rfl⟩, hr⟩ := h
  rw [← getAccountTotalCollateralInUSD_ok hv]
  exact _calculateHealthFactor_ok hr

/-- A health factor is computed from the value of the position. -/
theorem getHealthFactor_total (h : getHealthFactor env e user = .ok r) :
    ∃ value, getAccountTotalCollateralInUSD env e user = .ok value := by
  simp only [getHealthFactor, _getAccountInformation, Result.bind_ok, Result.pure_ok] at h
  obtain ⟨_, ⟨value, hvalue, -⟩, -⟩ := h
  exact ⟨value, hvalue⟩

/-- `_checkHealthFactorAndRevert` passes for users with a computable health
factor of at least the minimum. -/
theorem _checkHealthFactorAndRevert_ok {u : Unit} :
    _checkHealthFactorAndRevert env e user = .ok u ↔
      ∃ h, getHealthFactor env e user = .ok h ∧ MIN_HEALTH_FACTOR ≤ h := by
  simp [_checkHealthFactorAndRevert]

/-! ## When the view functions return -/

variable {env' : Env} {e' : DSCEngine}

/-- The loop returns only after it has valued every listed token. -/
theorem total_loop_values {tokens : List Address} {total : Nat}
    (h : tokens.foldlM (fun totalCollateralInUSD token => do
      let value ← getValueInUSD env e token (e.collateralToUser user token)
      addU totalCollateralInUSD value) total = .ok r) :
    ∀ t ∈ tokens, ∃ value, getValueInUSD env e t (e.collateralToUser user t) = .ok value := by
  induction tokens generalizing total with
  | nil =>
    intro t ht
    cases ht
  | cons t ts ih =>
    simp only [List.foldlM_cons, Result.bind_ok] at h
    obtain ⟨_, ⟨value, hvalue, -⟩, hrest⟩ := h
    intro t' ht'
    rcases List.mem_cons.mp ht' with rfl | ht'
    · exact ⟨value, hvalue⟩
    · exact ih hrest t' ht'

/-- The feed of `token` is accepted in `env'` with the price it has in `env`. -/
def SameQuote (env env' : Env) (e e' : DSCEngine) (token : Address) : Prop :=
  ∃ round, getLatestRoundDataAndRevertIfStale env' (e'.priceFeeds token) = .ok round ∧
    round.answer.toUint256 = quoted env e token

theorem getValueInUSD_sameQuote (h : getValueInUSD env e token amount = .ok r)
    (hfeeds : e'.priceFeeds = e.priceFeeds) : SameQuote env env e e' token := by
  simp only [getValueInUSD, Result.bind_ok] at h
  obtain ⟨round, hround, -⟩ := h
  exact ⟨round, hfeeds ▸ hround, by simp [quoted, hround]⟩

/-- A smaller amount at the same price has a value when the larger one has. -/
theorem getValueInUSD_mono {amount' : Nat} (h : getValueInUSD env e token amount = .ok r)
    (hquote : SameQuote env env' e e' token) (hle : amount' ≤ amount) :
    ∃ r', getValueInUSD env' e' token amount' = .ok r' ∧ r' ≤ r := by
  have hr := getValueInUSD_ok h
  obtain ⟨round', hround', hsame⟩ := hquote
  simp only [getValueInUSD, Result.bind_ok, mulU_ok] at h
  obtain ⟨round, hround, _, ⟨hprice, rfl⟩, _, ⟨hfits, rfl⟩, -⟩ := h
  have hq : round'.answer.toUint256 = round.answer.toUint256 := by
    rw [hsame]
    simp [quoted, hround]
  have hless : round.answer.toUint256 * ADDITIONAL_FEED_PRECISION * amount' ≤
      round.answer.toUint256 * ADDITIONAL_FEED_PRECISION * amount := Nat.mul_le_mul_left _ hle
  have hvalue : getValueInUSD env' e' token amount' =
      .ok (valueInUSD round.answer.toUint256 amount') := by
    simp only [getValueInUSD, Result.bind_ok, mulU_ok, divU_ok]
    rw [← hq] at hprice hfits hless ⊢
    exact ⟨round', hround', _, ⟨hprice, rfl⟩, _, ⟨Nat.lt_of_le_of_lt hless hfits, rfl⟩, by decide, rfl⟩
  refine ⟨_, hvalue, ?_⟩
  rw [hr, ← hsame, hq]
  exact valueInUSD_mono hle

theorem total_loop_mono {tokens : List Address} {total total' : Nat}
    (h : tokens.foldlM (fun totalCollateralInUSD token => do
      let value ← getValueInUSD env e token (e.collateralToUser user token)
      addU totalCollateralInUSD value) total = .ok r)
    (hquote : ∀ t ∈ tokens, SameQuote env env' e e' t)
    (hle : ∀ t, e'.collateralToUser user t ≤ e.collateralToUser user t) (htotal : total' ≤ total) :
    ∃ r', tokens.foldlM (fun totalCollateralInUSD token => do
      let value ← getValueInUSD env' e' token (e'.collateralToUser user token)
      addU totalCollateralInUSD value) total' = .ok r' ∧ r' ≤ r := by
  induction tokens generalizing total total' with
  | nil =>
    simp only [List.foldlM_nil, Result.pure_ok] at h
    exact ⟨total', rfl, h ▸ htotal⟩
  | cons t ts ih =>
    simp only [List.foldlM_cons, Result.bind_ok, addU_ok] at h ⊢
    obtain ⟨_, ⟨v, hv, hfits, rfl⟩, hrest⟩ := h
    obtain ⟨v', hv', hvle⟩ := getValueInUSD_mono hv (hquote t List.mem_cons_self) (hle t)
    have hsum : total' + v' ≤ total + v := Nat.add_le_add htotal hvle
    obtain ⟨r', hr', hrle⟩ := ih hrest (fun t' ht' => hquote t' (List.mem_cons_of_mem t ht')) hsum
    exact ⟨r', ⟨_, ⟨v', hv', Nat.lt_of_le_of_lt hsum hfits, rfl⟩, hr'⟩, hrle⟩

/-- A position with less collateral at the same prices has a value when the
larger one has. -/
theorem getAccountTotalCollateralInUSD_mono
    (h : getAccountTotalCollateralInUSD env e user = .ok r)
    (htokens : e'.collateralTokens = e.collateralTokens)
    (hquote : ∀ t ∈ e.collateralTokens, SameQuote env env' e e' t)
    (hle : ∀ t, e'.collateralToUser user t ≤ e.collateralToUser user t) :
    ∃ r', getAccountTotalCollateralInUSD env' e' user = .ok r' ∧ r' ≤ r := by
  unfold getAccountTotalCollateralInUSD
  rw [htokens]
  exact total_loop_mono h hquote hle (Nat.le_refl 0)

/-- With less collateral and the same configuration, in the same block. -/
theorem getAccountTotalCollateralInUSD_less
    (h : getAccountTotalCollateralInUSD env e user = .ok r)
    (htokens : e'.collateralTokens = e.collateralTokens) (hfeeds : e'.priceFeeds = e.priceFeeds)
    (hle : ∀ t, e'.collateralToUser user t ≤ e.collateralToUser user t) :
    ∃ r', getAccountTotalCollateralInUSD env e' user = .ok r' ∧ r' ≤ r := by
  refine getAccountTotalCollateralInUSD_mono h htokens (fun t ht => ?_) hle
  obtain ⟨value, hvalue⟩ := total_loop_values h t ht
  exact getValueInUSD_sameQuote hvalue hfeeds

/-- The health factor is computed unless one of its two products overflows. -/
theorem _calculateHealthFactor_returns (minted : Nat) {value : Nat}
    (hscaled : value * LIQUIDATION_THRESHOLD < uintSize)
    (hadjusted : value * LIQUIDATION_THRESHOLD / LIQUIDATION_PRECISION * PRECISION < uintSize) :
    _calculateHealthFactor minted value = .ok (healthFactor minted value) := by
  unfold _calculateHealthFactor
  split
  · next h0 => simp [healthFactor, h0, Pure.pure, Except.pure]
  · next h0 =>
    simp only [Result.bind_ok, mulU_ok, divU_ok]
    exact ⟨_, ⟨hscaled, rfl⟩, _, ⟨by decide, rfl⟩, _, ⟨hadjusted, rfl⟩, h0, by simp [healthFactor, h0]⟩

theorem getHealthFactor_returns {value : Nat}
    (hvalue : getAccountTotalCollateralInUSD env e user = .ok value)
    (h : _calculateHealthFactor (e.dscMinted user) value = .ok r) :
    getHealthFactor env e user = .ok r := by
  simp only [getHealthFactor, _getAccountInformation, Result.bind_ok, Result.pure_ok]
  exact ⟨_, ⟨value, hvalue, rfl⟩, h⟩

/-- A user without debt has the best health factor, as soon as the position has
a value. -/
theorem getHealthFactor_no_debt {value : Nat} (h0 : e.dscMinted user = 0)
    (hvalue : getAccountTotalCollateralInUSD env e user = .ok value) :
    getHealthFactor env e user = .ok uintMax :=
  getHealthFactor_returns hvalue (by simp [_calculateHealthFactor, h0, Pure.pure, Except.pure])

/-! ## The errors of the view functions -/

variable {x : EngineError}

theorem getValueInUSD_error (h : getValueInUSD env e token amount = .error (.error x)) :
    getLatestRoundDataAndRevertIfStale env (e.priceFeeds token) = .error (.error x) := by
  simpa [getValueInUSD, Result.bind_error, Result.mulU_ne_error, Result.divU_ne_error] using h

theorem total_loop_error {tokens : List Address} {total : Nat}
    (h : tokens.foldlM (fun totalCollateralInUSD token => do
      let value ← getValueInUSD env e token (e.collateralToUser user token)
      addU totalCollateralInUSD value) total = .error (.error x)) :
    ∃ t ∈ tokens, getLatestRoundDataAndRevertIfStale env (e.priceFeeds t) = .error (.error x) := by
  induction tokens generalizing total with
  | nil => exact absurd h Result.pure_ne_error
  | cons t ts ih =>
    simp only [List.foldlM_cons, Result.bind_error, Result.addU_ne_error, and_false, exists_false,
      or_false] at h
    rcases h with hvalue | ⟨_, -, hrest⟩
    · exact ⟨t, List.mem_cons_self, getValueInUSD_error hvalue⟩
    · obtain ⟨t', ht', hfeed⟩ := ih hrest
      exact ⟨t', List.mem_cons_of_mem t ht', hfeed⟩

theorem _calculateHealthFactor_ne_error {minted value : Nat} :
    _calculateHealthFactor minted value ≠ .error (.error x) := by
  intro h
  unfold _calculateHealthFactor at h
  split at h
  · exact Result.pure_ne_error h
  · simp only [Result.bind_error, Result.mulU_ne_error, Result.divU_ne_error, and_false,
      exists_false, or_self] at h

/-- The only named errors of a health factor are those of the feeds. -/
theorem getHealthFactor_error (h : getHealthFactor env e user = .error (.error x)) :
    ∃ t ∈ e.collateralTokens,
      getLatestRoundDataAndRevertIfStale env (e.priceFeeds t) = .error (.error x) := by
  simp only [getHealthFactor, _getAccountInformation, Result.bind_error, Result.pure_ne_error,
    and_false, exists_false, or_false] at h
  rcases h with htotal | ⟨⟨minted, value⟩, -, h⟩
  · exact total_loop_error htotal
  · exact absurd h _calculateHealthFactor_ne_error

theorem _checkHealthFactorAndRevert_error
    (h : _checkHealthFactorAndRevert env e user = .error (.error x)) :
    x = .healthFactorTooLow ∨ ∃ t ∈ e.collateralTokens,
      getLatestRoundDataAndRevertIfStale env (e.priceFeeds t) = .error (.error x) := by
  simp only [_checkHealthFactorAndRevert, Result.bind_error, Result.revertIf_error] at h
  rcases h with hhealth | ⟨_, -, -, hx⟩
  · exact .inr (getHealthFactor_error hhealth)
  · cases hx
    exact .inl rfl

theorem _convertDscToCollateral_error {debt : Nat}
    (h : _convertDscToCollateral env e token debt = .error (.error x)) :
    getLatestRoundDataAndRevertIfStale env (e.priceFeeds token) = .error (.error x) := by
  simpa [_convertDscToCollateral, Result.bind_error, Result.mulU_ne_error,
    Result.divU_ne_error] using h

/-- The one named error of a feed. -/
theorem getLatestRoundData_error {feed : Address}
    (h : getLatestRoundDataAndRevertIfStale env feed = .error (.error x)) :
    x = .staleOracleData := by
  simp only [getLatestRoundDataAndRevertIfStale, Result.bind_error, Result.ofOption_ne_error,
    Result.revertIf_error, Result.subU_ne_error, Result.pure_ne_error, and_false, exists_false,
    or_false, false_or] at h
  rcases h with ⟨_, -, ⟨-, hx⟩ | ⟨_, -, _, -, -, hx⟩⟩ <;> cases hx <;> rfl

end Views

end AdvFoundry.Dsc
