import AdvFoundry.Dsc.Positions

/-!
# What the engine does with a bad oracle

Every health check goes through the feeds of all listed tokens, so one feed that
is rejected or answers a negative price stops every function that ends with a
check or begins with one. Deposits and repayments read no feed at all
(`bad_oracle_freezes`).

`OracleLib` measures three hours from the start of a round, not from its last
update. `freshness_iff` says for which rounds that makes no difference, and
`fresh_update_rejected` is one for which it does.
-/

namespace AdvFoundry.Dsc

/-- The functions of the engine that check a health factor. -/
def EngineOp.readsPrices : EngineOp → Bool
  | depositCollateral _ _ => false
  | burnDSC _ => false
  | _ => true

/-- The feed is rejected by `OracleLib`, or what it answers is negative. -/
def BadFeed (env : Env) (priceFeed : Address) : Prop :=
  ∀ round, getLatestRoundDataAndRevertIfStale env priceFeed = .ok round → round.answer.val < 0

namespace OracleLemmas

open PositionLemmas

variable {env : Env} {e : DSCEngine} {user token : Address} {amount r : Nat}

/-- The feed answers, and the scaled answer is a `uint256`. -/
def GoodFeed (env : Env) (priceFeed : Address) : Prop :=
  ∃ round, getLatestRoundDataAndRevertIfStale env priceFeed = .ok round ∧
    round.answer.toUint256 * ADDITIONAL_FEED_PRECISION < uintSize

def FeedsGood (env : Env) (e : DSCEngine) : Prop :=
  ∀ t ∈ e.collateralTokens, GoodFeed env (e.priceFeeds t)

theorem FeedsGood.of_config {e' : DSCEngine} (h : FeedsGood env e') (hsame : SameConfig e e') :
    FeedsGood env e := by
  intro t ht
  rw [← hsame.feeds]
  rw [← hsame.tokens] at ht
  exact h t ht

/-- A negative answer wraps to at least `2 ^ 255`, which the scaling overflows. -/
theorem not_good_of_bad {priceFeed : Address} (hbad : BadFeed env priceFeed) :
    ¬ GoodFeed env priceFeed := by
  rintro ⟨round, hround, hfits⟩
  have hneg := hbad round hround
  have hwrap := Int256.le_toUint256_of_neg hneg
  simp only [ADDITIONAL_FEED_PRECISION, uintSize] at hfits
  omega

theorem getValueInUSD_good (h : getValueInUSD env e token amount = .ok r) :
    GoodFeed env (e.priceFeeds token) := by
  simp only [getValueInUSD, Result.bind_ok, mulU_ok] at h
  obtain ⟨round, hround, _, ⟨hfits, -⟩, -⟩ := h
  exact ⟨round, hround, hfits⟩

/-- A health factor comes from good feeds only. -/
theorem getHealthFactor_good (h : getHealthFactor env e user = .ok r) : FeedsGood env e := by
  obtain ⟨_, htotal⟩ := getHealthFactor_total h
  intro t ht
  obtain ⟨_, hvalue⟩ := total_loop_values htotal t ht
  exact getValueInUSD_good hvalue

theorem check_good {u : Unit} (h : _checkHealthFactorAndRevert env e user = .ok u) :
    FeedsGood env e := by
  obtain ⟨_, hhealth, -⟩ := _checkHealthFactorAndRevert_ok.mp h
  exact getHealthFactor_good hhealth

/-- Every function that checks a health factor has read every feed when it
returns. -/
theorem feeds_good_of_exec {c : Ctx} {w w' : World} {op : EngineOp} {u : Unit}
    (hop : op.readsPrices = true) (h : op.exec c w = .ok (u, w')) :
    FeedsGood c.env w.engine := by
  have hconfig := config_engine h
  -- the mints and redemptions are checked in the world they leave
  suffices hend : FeedsGood c.env w'.engine ∨ FeedsGood c.env w.engine from
    hend.elim (fun hgood => hgood.of_config hconfig) fun hgood => hgood
  cases op with
  | depositCollateral t a | burnDSC a => cases hop
  | mintDSC a => exact .inl (check_good (check_mint h))
  | depositCollateralAndMintDSC t a m =>
    obtain ⟨w₁, -, hmint⟩ := depositCollateralAndMintDSC_ok.mp h
    exact .inl (check_good (check_mint hmint))
  | reedemCollateral t a =>
    obtain ⟨-, -, -, hcheck⟩ := reedemCollateral_ok.mp h
    exact .inl (check_good hcheck)
  | reedemCollateralAndBurnDSC t a b =>
    obtain ⟨w₁, -, hreedem⟩ := reedemCollateralAndBurnDSC_ok.mp h
    obtain ⟨-, -, -, hcheck⟩ := reedemCollateral_ok.mp hreedem
    exact .inl (check_good hcheck)
  | liquidate b t d =>
    obtain ⟨-, -, start, hstart, -⟩ := liquidate_ok.mp h
    exact .inr (getHealthFactor_good hstart)

end OracleLemmas

open OracleLemmas

/-! ## 1. One bad feed -/

/-- With one bad feed of a listed token, every function that checks a health
factor reverts, whoever calls it with whatever arguments. The two that do not
check give the same result, error or world, whatever the feeds and the block. -/
theorem bad_oracle_freezes :
    (∀ (c : Ctx) (w : World) (op : EngineOp), op.readsPrices = true →
      (∃ t ∈ w.engine.collateralTokens, BadFeed c.env (w.engine.priceFeeds t)) →
      ∃ e, op.exec c w = .error e) ∧
    ∀ (c c' : Ctx) (w : World) (op : EngineOp), op.readsPrices = false →
      c'.this = c.this → c'.sender = c.sender → op.exec c' w = op.exec c w := by
  constructor
  · rintro c w op hop ⟨t, ht, hbad⟩
    cases hresult : op.exec c w with
    | error e => exact ⟨e, rfl⟩
    | ok result => exact absurd (feeds_good_of_exec hop hresult t ht) (not_good_of_bad hbad)
  · intro c c' w op hop hthis hsender
    rcases c with ⟨this, sender, env, hne⟩
    rcases c' with ⟨this', sender', env', hne'⟩
    cases hthis
    cases hsender
    cases op with
    | depositCollateral t a => rfl
    | burnDSC a => rfl
    | mintDSC a | depositCollateralAndMintDSC t a m | reedemCollateral t a
    | reedemCollateralAndBurnDSC t a b | liquidate b t d => cases hop

/-- A price of minus one unit stops the borrower's mint and not its repayment. -/
theorem bad_oracle_freezes_negative :
    ∃ price : Int256, price.val = -1 ∧
      (∃ e, (EngineOp.mintDSC 1).exec (borrowerCtx price) openedWorld = .error e) ∧
      (EngineOp.burnDSC 1).exec (borrowerCtx price) openedWorld =
        (EngineOp.burnDSC 1).exec (borrowerCtx price2000) openedWorld := by
  let price : Int256 := ⟨-1, by decide, by decide⟩
  refine ⟨price, rfl, bad_oracle_freezes.1 _ _ _ rfl ⟨3, by decide +kernel, fun round hround => ?_⟩,
    bad_oracle_freezes.2 _ _ _ _ rfl rfl rfl⟩
  have hfresh := sampleEnv_fresh price
  cases hround.symm.trans hfresh
  decide

/-! ## 2. Which timestamp decides -/

/-- The round is complete and its answer was written within the last three
hours. -/
def UpdatedInTime (env : Env) (round : RoundData) : Prop :=
  round.updatedAt ≠ 0 ∧ round.roundId ≤ round.answeredInRound ∧
    env.timestamp - round.updatedAt ≤ 3 * 60 * 60

/-- The round is incomplete, or its start and its last update lie on the same
side of three hours ago. -/
def TimesAgree (env : Env) (round : RoundData) : Prop :=
  round.updatedAt = 0 ∨ round.answeredInRound < round.roundId ∨
    (env.timestamp - round.startedAt ≤ 3 * 60 * 60 ↔ env.timestamp - round.updatedAt ≤ 3 * 60 * 60)

/-- The tokens whose feeds a function reads. -/
def EngineOp.pricedTokens (e : DSCEngine) : EngineOp → List Address
  | depositCollateral _ _ => []
  | burnDSC _ => []
  | liquidate _ t _ => t :: e.collateralTokens
  | _ => e.collateralTokens

namespace OracleLemmas

open PositionLemmas

variable {c : Ctx} {w w' : World} {env : Env} {round : RoundData} {token feed : Address} {amount : Nat}

/-- The check of the library: a complete round that *started* within the last
three hours. -/
theorem getLatestRoundData_iff (hround : env.latestRoundData feed = some round)
    (hstarted : round.startedAt ≤ env.timestamp) :
    getLatestRoundDataAndRevertIfStale env feed = .ok round ↔
      round.updatedAt ≠ 0 ∧ round.roundId ≤ round.answeredInRound ∧
        env.timestamp - round.startedAt ≤ 3 * 60 * 60 := by
  simp only [getLatestRoundDataAndRevertIfStale, hround, Result.bind_ok, Result.ofOption_ok,
    Result.revertIf_ok, subU_ok, Result.pure_ok, Option.some.injEq, not_or, Nat.not_lt]
  constructor
  · rintro ⟨_, rfl, _, ⟨hupdated, hanswered⟩, _, ⟨-, rfl⟩, _, hfresh, -⟩
    exact ⟨hupdated, hanswered, hfresh⟩
  · rintro ⟨hupdated, hanswered, hfresh⟩
    exact ⟨round, rfl, (), ⟨hupdated, hanswered⟩, _, ⟨hstarted, rfl⟩, (), hfresh, rfl⟩

/-- What the library returns is what the feed answered. -/
theorem getLatestRoundData_answer (h : getLatestRoundDataAndRevertIfStale env feed = .ok round) :
    env.latestRoundData feed = some round := by
  simp only [getLatestRoundDataAndRevertIfStale, Result.bind_ok, Result.ofOption_ok,
    Result.revertIf_ok, Result.pure_ok] at h
  obtain ⟨_, hround, _, -, _, -, _, -, rfl⟩ := h
  exact hround

theorem returns_iff (hround : env.latestRoundData feed = some round)
    (hstarted : round.startedAt ≤ env.timestamp) :
    (∃ r, getLatestRoundDataAndRevertIfStale env feed = .ok r) ↔
      round.updatedAt ≠ 0 ∧ round.roundId ≤ round.answeredInRound ∧
        env.timestamp - round.startedAt ≤ 3 * 60 * 60 := by
  rw [← getLatestRoundData_iff hround hstarted]
  constructor
  · rintro ⟨r, hr⟩
    have hsame := getLatestRoundData_answer hr
    rw [hround] at hsame
    cases hsame
    exact hr
  · exact fun hr => ⟨round, hr⟩

/-- Where the two times agree, the library accepts the rounds updated in time. -/
theorem timesAgree_iff :
    ((round.updatedAt ≠ 0 ∧ round.roundId ≤ round.answeredInRound ∧
        env.timestamp - round.startedAt ≤ 3 * 60 * 60) ↔ UpdatedInTime env round) ↔
      TimesAgree env round := by
  unfold UpdatedInTime TimesAgree
  constructor
  · intro h
    by_cases h0 : round.updatedAt = 0
    · exact .inl h0
    · by_cases hanswered : round.answeredInRound < round.roundId
      · exact .inr (.inl hanswered)
      · exact .inr (.inr (by simpa [h0, Nat.not_lt.mp hanswered] using h))
  · rintro (h0 | hanswered | hagree)
    · simp [h0]
    · simp [Nat.not_le.mpr hanswered]
    · rw [hagree]

/-! ### Errors of the price check in the engine's functions -/

/-- The reason `OracleLib` gives. -/
abbrev stale : Revert EngineError := .error .staleOracleData

theorem checkValidAmount_not_stale : checkValidAmount amount w ≠ .error stale := by
  simp [checkValidAmount, Tx.revertIf_error]

theorem checkAllowedToken_not_stale : checkAllowedToken token w ≠ .error stale := by
  simp [checkAllowedToken, Tx.view_error, Result.revertIf_error]

theorem guarded_stale {body : EngineTx Unit} (h : guarded body w = .error stale) :
    body (w.setEntered true) = .error stale := by
  rcases nonReentrant_error h with he | hbody
  · cases he
  · exact hbody

theorem _reedemCollateral_not_stale {src dst : Address} :
    _reedemCollateral c src dst token amount w ≠ .error stale := by
  intro h
  simp only [_reedemCollateral, Tx.bind_error, Tx.tryModify_error, Result.bind_error,
    Result.subU_ne_error, Result.pure_ne_error, Tx.revertIf_error, callToken, Tx.call_error,
    reduceCtorEq, Revert.error.injEq, and_false, exists_false, or_self] at h

theorem _burnDSC_not_stale {debtor payer : Address} :
    _burnDSC c amount debtor payer w ≠ .error stale := by
  intro h
  simp only [_burnDSC, Tx.bind_error, Tx.tryModify_error, Result.bind_error, Result.subU_ne_error,
    Result.pure_ne_error, Tx.get_ne_error, Tx.revertIf_error, callToken, callCoin, Tx.call_error,
    reduceCtorEq, Revert.error.injEq, and_false, exists_false, or_self] at h

theorem burnDSC_not_stale : burnDSC c amount w ≠ .error stale := by
  intro h
  simp only [burnDSC, Tx.bind_error, checkValidAmount_not_stale, false_or] at h
  obtain ⟨_, _, -, h⟩ := h
  exact _burnDSC_not_stale (guarded_stale h)

theorem depositCollateral_not_stale : depositCollateral c token amount w ≠ .error stale := by
  intro h
  simp only [depositCollateral, Tx.bind_error, checkValidAmount_not_stale,
    checkAllowedToken_not_stale, false_or] at h
  obtain ⟨_, _, -, _, _, -, h⟩ := h
  have hbody := guarded_stale h
  simp only [Tx.bind_error, Tx.tryModify_error, Result.bind_error, Result.addU_ne_error,
    Result.pure_ne_error, Tx.revertIf_error, callToken, Tx.call_error, reduceCtorEq,
    Revert.error.injEq, and_false, exists_false, or_self] at hbody

/-- A listed feed that `OracleLib` calls stale. -/
def StaleFeed (env : Env) (e : DSCEngine) (tokens : List Address) : Prop :=
  ∃ t ∈ tokens, getLatestRoundDataAndRevertIfStale env (e.priceFeeds t) = .error stale

/-- No move changes the configuration, so a stale feed was one before it. -/
theorem StaleFeed.of_config {e e' : DSCEngine} (hconfig : SameConfig e e')
    (h : StaleFeed env e' e'.collateralTokens) : StaleFeed env e e.collateralTokens := by
  obtain ⟨t, ht, hfeed⟩ := h
  rw [hconfig.tokens] at ht
  rw [hconfig.feeds] at hfeed
  exact ⟨t, ht, hfeed⟩

theorem check_stale {e : DSCEngine} {user : Address}
    (h : _checkHealthFactorAndRevert env e user = .error stale) :
    StaleFeed env e e.collateralTokens := by
  rcases _checkHealthFactorAndRevert_error h with hx | hfeed
  · cases hx
  · exact hfeed

theorem mintDSC_stale (h : mintDSC c amount w = .error stale) :
    StaleFeed c.env w.engine w.engine.collateralTokens := by
  simp only [mintDSC, Tx.bind_error, checkValidAmount_not_stale, checkValidAmount_ok,
    Tx.tryModify_error, Tx.tryModify_ok, Result.bind_error, Result.addU_ne_error, Result.pure_ne_error,
    Result.bind_ok, addU_ok, Result.pure_ok, Tx.view_error, Tx.revertIf_error, callCoin,
    Tx.call_error, reduceCtorEq, Revert.error.injEq, and_false, exists_false, or_false,
    false_or] at h
  obtain ⟨_, w, ⟨-, rfl⟩, _, _, ⟨_, ⟨-, rfl⟩, rfl⟩, h⟩ := h
  have hconfig : SameConfig w.engine
      (w.setMinted c.sender (w.engine.dscMinted c.sender + amount)).engine := ⟨rfl, rfl, rfl⟩
  exact (check_stale h).of_config hconfig

theorem reedemCollateral_stale (h : reedemCollateral c token amount w = .error stale) :
    StaleFeed c.env w.engine w.engine.collateralTokens := by
  simp only [reedemCollateral, Tx.bind_error, checkValidAmount_not_stale, checkValidAmount_ok,
    false_or] at h
  obtain ⟨_, w, ⟨-, rfl⟩, h⟩ := h
  have hbody := guarded_stale h
  simp only [Tx.bind_error, _reedemCollateral_not_stale, _reedemCollateral_ok, Tx.view_error,
    false_or] at hbody
  obtain ⟨_, w', ⟨-, -, -, _, hw'⟩, hcheck⟩ := hbody
  have hconfig : SameConfig w.engine w'.engine := by
    rw [hw']
    exact ⟨rfl, rfl, rfl⟩
  exact (check_stale hcheck).of_config hconfig

/-- The engine reverts with the reason of `OracleLib` only when a feed it reads
is rejected by it. -/
theorem stale_of_exec {op : EngineOp} (h : op.exec c w = .error stale) :
    StaleFeed c.env w.engine (op.pricedTokens w.engine) := by
  cases op with
  | depositCollateral t a => exact absurd h depositCollateral_not_stale
  | mintDSC a => exact mintDSC_stale h
  | depositCollateralAndMintDSC t a m =>
    simp only [EngineOp.exec, depositCollateralAndMintDSC, Tx.bind_error, checkValidAmount_not_stale,
      checkValidAmount_ok, checkAllowedToken_not_stale, checkAllowedToken_ok,
      depositCollateral_not_stale, false_or] at h
    obtain ⟨_, w, ⟨-, rfl⟩, _, w, ⟨-, rfl⟩, _, w₁, hd, hm⟩ := h
    exact (mintDSC_stale hm).of_config (config_move (move_of_deposit hd))
  | reedemCollateral t a => exact reedemCollateral_stale h
  | reedemCollateralAndBurnDSC t a b =>
    simp only [EngineOp.exec, reedemCollateralAndBurnDSC, Tx.bind_error, checkValidAmount_not_stale,
      checkValidAmount_ok, burnDSC_not_stale, Tx.view_error, false_or] at h
    obtain ⟨_, w, ⟨-, rfl⟩, _, w₁, hb, hr | ⟨_, w₂, hr, hcheck⟩⟩ := h
    · exact (reedemCollateral_stale hr).of_config (config_move (move_of_burn (burnDSC_ok.mp hb).2))
    · -- the last check repeats the one `reedemCollateral` has just passed
      rw [(reedemCollateral_ok.mp hr).2.2.2] at hcheck
      cases hcheck
  | burnDSC a => exact absurd h burnDSC_not_stale
  | liquidate b t d =>
    simp only [EngineOp.exec, liquidate, Tx.bind_error, checkValidAmount_not_stale,
      checkValidAmount_ok, Tx.get_ne_error, Tx.get_ok, Tx.revertIf_error, Tx.revertIf_ok,
      Tx.view_error, Tx.view_ok, Result.mulU_ne_error, Result.divU_ne_error, Result.addU_ne_error,
      _burnDSC_not_stale, _reedemCollateral_not_stale, false_or, reduceCtorEq,
      Revert.error.injEq, and_false, existsAndEq, exists_const, and_true, true_and] at h
    obtain ⟨-, -, hstart | ⟨_, -, -, hconvert | ⟨_, -, _, -, _, -, _, -, _, w₁, hb, _, w₂, hr,
      hfinal | ⟨_, hfalse⟩⟩⟩⟩ := h
    · obtain ⟨t', ht', hfeed⟩ := getHealthFactor_error hstart
      exact ⟨t', List.mem_cons_of_mem t ht', hfeed⟩
    · exact ⟨t, List.mem_cons_self, _convertDscToCollateral_error hconvert⟩
    · have hburned := config_move (move_of_burn hb)
      have hreedemed := config_move (move_of_reedem hr)
      obtain ⟨t', ht', hfeed⟩ := StaleFeed.of_config hburned
        (StaleFeed.of_config hreedemed (getHealthFactor_error hfinal))
      exact ⟨t', List.mem_cons_of_mem t ht', hfeed⟩
    · exact hfalse.elim

/-- A call that returned had every price it read accepted by `OracleLib`. -/
theorem accepted_of_exec {op : EngineOp} {u : Unit} (h : op.exec c w = .ok (u, w')) :
    ∀ t ∈ op.pricedTokens w.engine, ∃ round,
      getLatestRoundDataAndRevertIfStale c.env (w.engine.priceFeeds t) = .ok round := by
  intro t ht
  cases op with
  | depositCollateral _ _ | burnDSC _ => cases ht
  | mintDSC _ | depositCollateralAndMintDSC _ _ _ | reedemCollateral _ _
  | reedemCollateralAndBurnDSC _ _ _ =>
    obtain ⟨round, hround, -⟩ := feeds_good_of_exec rfl h t ht
    exact ⟨round, hround⟩
  | liquidate b t' d =>
    rcases List.mem_cons.mp ht with rfl | ht
    · obtain ⟨-, -, _, -, -, _, hseizes, -⟩ := liquidate_ok.mp h
      exact hseizes.fresh
    · obtain ⟨round, hround, -⟩ := feeds_good_of_exec rfl h t ht
      exact ⟨round, hround⟩

end OracleLemmas

/-- `OracleLib` accepts exactly the rounds updated within three hours if and
only if the round's two times agree. Where they do for every feed a call reads,
the call uses only such rounds when it returns, and is not stopped as stale when
they all are. -/
theorem freshness_iff (env : Env) :
    (∀ (feed : Address) (round : RoundData), env.latestRoundData feed = some round →
      round.startedAt ≤ env.timestamp → round.updatedAt ≤ env.timestamp →
      (((∃ r, getLatestRoundDataAndRevertIfStale env feed = .ok r) ↔ UpdatedInTime env round) ↔
        TimesAgree env round)) ∧
    ∀ (c : Ctx) (w : World) (op : EngineOp), c.env = env →
      (∀ t ∈ op.pricedTokens w.engine, ∀ round,
        env.latestRoundData (w.engine.priceFeeds t) = some round →
        round.startedAt ≤ env.timestamp ∧ round.updatedAt ≤ env.timestamp ∧
          TimesAgree env round) →
      (∀ w', op.exec c w = .ok ((), w') → ∀ t ∈ op.pricedTokens w.engine, ∃ round,
        env.latestRoundData (w.engine.priceFeeds t) = some round ∧ UpdatedInTime env round) ∧
      ((∀ t ∈ op.pricedTokens w.engine, ∃ round,
        env.latestRoundData (w.engine.priceFeeds t) = some round ∧ UpdatedInTime env round) →
        op.exec c w ≠ .error (.error .staleOracleData)) := by
  refine ⟨fun feed round hround hstarted _ => ?_, ?_⟩
  · rw [returns_iff hround hstarted]
    exact timesAgree_iff
  rintro c w op rfl hagree
  constructor
  · intro w' h t ht
    obtain ⟨round, haccepted⟩ := accepted_of_exec h t ht
    have hround := getLatestRoundData_answer haccepted
    obtain ⟨hstarted, -, htimes⟩ := hagree t ht round hround
    exact ⟨round, hround,
      (timesAgree_iff.mpr htimes).mp ((returns_iff hround hstarted).mp ⟨round, haccepted⟩)⟩
  · intro hupdated h
    obtain ⟨t, ht, hstale⟩ := stale_of_exec h
    obtain ⟨round, hround, hintime⟩ := hupdated t ht
    obtain ⟨hstarted, -, htimes⟩ := hagree t ht round hround
    obtain ⟨_, haccepted⟩ :=
      (returns_iff hround hstarted).mpr ((timesAgree_iff.mpr htimes).mpr hintime)
    rw [haccepted] at hstale
    cases hstale

/-- In the sample block the round starts and is updated at once. -/
theorem freshness_iff_sample :
    UpdatedInTime (sampleEnv price2000) ⟨1, price2000, 1000, 1000, 1⟩ ∧
      ∃ r, getLatestRoundDataAndRevertIfStale (sampleEnv price2000) 4 = .ok r := by
  have hround : (sampleEnv price2000).latestRoundData 4 = some ⟨1, price2000, 1000, 1000, 1⟩ := by
    simp [sampleEnv]
  have hagree : TimesAgree (sampleEnv price2000) ⟨1, price2000, 1000, 1000, 1⟩ :=
    .inr (.inr Iff.rfl)
  have hintime : UpdatedInTime (sampleEnv price2000) ⟨1, price2000, 1000, 1000, 1⟩ :=
    ⟨by decide, by decide, by decide⟩
  exact ⟨hintime, (((freshness_iff _).1 4 _ hround (by decide) (by decide)).mpr hagree).mpr hintime⟩

/-- The round of the feed at `9` started more than five hours ago and was updated
ten seconds ago. -/
def slowEnv : Env where
  timestamp := 20000
  latestRoundData := fun feed => if feed = 9 then some ⟨1, price2000, 1000, 19990, 1⟩ else none
  no_feed_at_zero := if_neg (by decide)

/-- The library rejects that round. -/
theorem fresh_update_rejected :
    ¬ ∀ (env : Env) (feed : Address) (round : RoundData), env.latestRoundData feed = some round →
      0 ≤ round.answer.val → round.startedAt ≤ env.timestamp → round.updatedAt ≤ env.timestamp →
      ((∃ r, getLatestRoundDataAndRevertIfStale env feed = .ok r) ↔ UpdatedInTime env round) := by
  intro hall
  have hround : slowEnv.latestRoundData 9 = some ⟨1, price2000, 1000, 19990, 1⟩ := by
    simp [slowEnv]
  have hclaimed := hall slowEnv 9 _ hround (by decide) (by decide) (by decide)
  have hintime : UpdatedInTime slowEnv ⟨1, price2000, 1000, 19990, 1⟩ :=
    ⟨by decide, by decide, by decide⟩
  obtain ⟨-, -, hstarted⟩ := (returns_iff hround (by decide)).mp (hclaimed.mpr hintime)
  exact absurd hstarted (by decide)

end AdvFoundry.Dsc
