import AdvFoundry.Dsc.Positions

/-!
# The two allow-lists of the engine

The constructor writes the feeds into a mapping and the tokens into an array.
`depositCollateral` asks the mapping, `getAccountTotalCollateralInUSD` goes
through the array, and all that is checked is that the two arguments are equally
long. A token listed twice is valued twice, and a token whose feed is the zero
address cannot be deposited but makes every valuation revert.

`counted_once_iff`: for all other arguments the two lists are the same set, and
in every later state the value of an account counts each of its tokens once.
-/

namespace AdvFoundry.Dsc

open Function

/-- The tokens `depositCollateral` accepts. -/
def allowedTokens (w : World) : Finset Address :=
  Finset.univ.filter fun t => (checkAllowedToken t).succeeds w = true

/-- In every state of every run from an engine with the storage `e₀`, and for
every account: where the accepted tokens have values and their sum is a
`uint256`, that sum is the value of the account. -/
def CountedOnce (e₀ : DSCEngine) : Prop :=
  ∀ (this : Address) (w₀ w : World) (msgs : List Msg), Deployed this w₀ → w₀.engine = e₀ →
    Run (Step this) w₀ msgs w → ∀ (env : Env) (u : Address) (value : Address → Nat),
    (∀ t ∈ allowedTokens w,
      getValueInUSD env w.engine t (w.engine.collateralToUser u t) = .ok (value t)) →
    ∑ t ∈ allowedTokens w, value t < uintSize →
    getAccountTotalCollateralInUSD env w.engine u = .ok (∑ t ∈ allowedTokens w, value t)

namespace ListingLemmas

variable {this u : Address} {w w' : World} {env : Env} {e : DSCEngine} {tokens feeds : List Address}
  {dsc : Address}

theorem mem_allowedTokens {t : Address} : t ∈ allowedTokens w ↔ w.engine.priceFeeds t ≠ 0 := by
  rw [allowedTokens, Finset.mem_filter]
  constructor
  · rintro ⟨-, hok⟩
    exact (checkAllowedToken_ok.mp (Tx.ok_after hok)).1
  · intro hne
    exact ⟨Finset.mem_univ t, (Tx.of_ok (checkAllowedToken_ok.mpr ⟨hne, rfl⟩)).1⟩

/-! ## The configuration along a run -/

theorem config_step {m : Msg} (h : Step this w m w') : SameConfig w.engine w'.engine := by
  obtain ⟨hne, h⟩ := h
  rcases m with ⟨sender, env, call⟩
  cases call with
  | engine op => exact config_engine h
  | token t op | coin op | issue t a v | retire t v =>
    rw [engine_eq_of_token (by intro op; simp) h]
    exact ⟨rfl, rfl, rfl⟩

theorem config_run {msgs : List Msg} (hrun : Run (Step this) w msgs w') :
    SameConfig w.engine w'.engine :=
  Run.invariant (I := fun w' => SameConfig w.engine w'.engine) (C := fun _ => True)
    (fun _ _ _ _ hsame hstep => hsame.trans (config_step hstep)) hrun (fun _ _ => trivial)
    ⟨rfl, rfl, rfl⟩

/-! ## What the constructor writes -/

theorem constructor_feeds (h : constructor tokens feeds dsc = .ok e) :
    tokens.length = feeds.length ∧ e.collateralTokens = tokens ∧
      e.priceFeeds = (tokens.zip feeds).foldl (fun m p => update m p.1 p.2) fun _ => 0 := by
  simp only [constructor, Result.bind_ok, Result.revertIf_ok, Result.pure_ok] at h
  obtain ⟨_, hlength, rfl⟩ := h
  exact ⟨not_not.mp hlength, rfl, rfl⟩

/-- A token that is not listed has no feed. -/
theorem feed_of_notMem (h : constructor tokens feeds dsc = .ok e) {t : Address} (ht : t ∉ tokens) :
    e.priceFeeds t = 0 := by
  obtain ⟨hlength, -, hfeeds⟩ := constructor_feeds h
  rw [hfeeds]
  apply foldl_update_of_notMem
  rwa [List.map_fst_zip hlength.le]

/-- The feed of a listed token is one of the feeds. -/
theorem feed_mem (h : constructor tokens feeds dsc = .ok e) {t : Address} (ht : t ∈ tokens) :
    e.priceFeeds t ∈ feeds := by
  obtain ⟨hlength, -, hfeeds⟩ := constructor_feeds h
  have hwritten : e.priceFeeds t ∈ (tokens.zip feeds).map Prod.snd := by
    rw [hfeeds]
    apply foldl_update_mem
    rwa [List.map_fst_zip hlength.le]
  rwa [List.map_snd_zip hlength.ge] at hwritten

/-- Without repetition every feed is the feed of a token. -/
theorem exists_of_feed (h : constructor tokens feeds dsc = .ok e) (hnodup : tokens.Nodup)
    {feed : Address} (hfeed : feed ∈ feeds) : ∃ t ∈ tokens, e.priceFeeds t = feed := by
  obtain ⟨hlength, -, hfeeds⟩ := constructor_feeds h
  have hsnd : feed ∈ (tokens.zip feeds).map Prod.snd := by rwa [List.map_snd_zip hlength.ge]
  obtain ⟨⟨t, _⟩, hp, rfl⟩ := List.mem_map.mp hsnd
  refine ⟨t, (List.of_mem_zip hp).1, ?_⟩
  rw [hfeeds]
  exact foldl_update_of_nodup (by rwa [List.map_fst_zip hlength.le]) hp

/-! ## Distinct tokens with feeds -/

/-- The loop returns when every value does and their sum has room. -/
theorem total_loop_returns {value : Address → Nat} {total : Nat}
    (hvalue : ∀ t ∈ tokens, getValueInUSD env e t (e.collateralToUser u t) = .ok (value t))
    (hfits : total + (tokens.map value).sum < uintSize) :
    tokens.foldlM (fun totalCollateralInUSD token => do
      let value ← getValueInUSD env e token (e.collateralToUser u token)
      addU totalCollateralInUSD value) total = .ok (total + (tokens.map value).sum) := by
  induction tokens generalizing total with
  | nil => rfl
  | cons t ts ih =>
    rw [List.map_cons, List.sum_cons, ← Nat.add_assoc] at hfits ⊢
    simp only [List.foldlM_cons, Result.bind_ok, addU_ok]
    have hroom : total + value t < uintSize := by omega
    exact ⟨_, ⟨_, hvalue t List.mem_cons_self, hroom, rfl⟩,
      ih (fun t' ht' => hvalue t' (List.mem_cons_of_mem _ ht')) hfits⟩

theorem allowedTokens_eq (h : constructor tokens feeds dsc = .ok e)
    (hconfig : SameConfig e w.engine) (hfeeds : 0 ∉ feeds) : allowedTokens w = tokens.toFinset := by
  ext t
  rw [mem_allowedTokens, hconfig.feeds, List.mem_toFinset]
  constructor
  · intro hne
    by_contra hnot
    exact hne (feed_of_notMem h hnot)
  · intro ht hzero
    exact hfeeds (hzero ▸ feed_mem h ht)

theorem countedOnce_of_distinct (h : constructor tokens feeds dsc = .ok e) (hnodup : tokens.Nodup)
    (hfeeds : 0 ∉ feeds) : CountedOnce e := by
  rintro this w₀ w msgs - rfl hrun env u value hvalue hfits
  have hconfig := config_run hrun
  have hsum : ∑ t ∈ allowedTokens w, value t = 0 + (tokens.map value).sum := by
    rw [allowedTokens_eq h hconfig hfeeds, List.sum_toFinset value hnodup, Nat.zero_add]
  rw [hsum] at hfits ⊢
  unfold getAccountTotalCollateralInUSD
  rw [hconfig.tokens, (constructor_feeds h).2.1]
  refine total_loop_returns (fun t ht => hvalue t ?_) hfits
  rw [allowedTokens_eq h hconfig hfeeds]
  exact List.mem_toFinset.mpr ht

/-! ## The other lists -/

/-- A block in which every feed answers one dollar. -/
def dollarEnv : Env where
  timestamp := 1
  latestRoundData := fun feed =>
    if feed = 0 then none else some ⟨1, ⟨10 ^ 8, by decide, by decide⟩, 1, 1, 1⟩
  no_feed_at_zero := if_pos rfl

/-- At one dollar an amount is its own value. -/
theorem getValueInUSD_dollar {t : Address} {amount : Nat} (ht : e.priceFeeds t ≠ 0)
    (hfits : 10 ^ 18 * amount < uintSize) : getValueInUSD dollarEnv e t amount = .ok amount := by
  simp only [getValueInUSD, getLatestRoundDataAndRevertIfStale, Result.bind_ok, Result.ofOption_ok,
    Result.revertIf_ok, subU_ok, mulU_ok, divU_ok, Result.pure_ok]
  exact ⟨_, ⟨_, if_neg ht, (), by decide, 0, by decide, (), by decide, rfl⟩, 10 ^ 18, by decide,
    _, ⟨hfits, rfl⟩, by decide, Nat.mul_div_cancel_left amount (by decide)⟩

/-- The engine with tokens nobody has, except for one of `t` that the account `41`
has approved to the engine at `1`. -/
def oneTokenWorld (e : DSCEngine) (t : Address) : World where
  engine := e
  tokens := update (fun _ => ERC20.empty) t ((ERC20.empty.issue 41 1 (by decide)).allow 41 1 1)
  dscOwner := 1

/-- A call of that account. -/
def depositorCtx : Ctx := ⟨1, 41, dollarEnv, by decide⟩

theorem oneTokenWorld_deployed (h : constructor tokens feeds dsc = .ok e) (t : Address) :
    Deployed 1 (oneTokenWorld e t) := by
  refine ⟨⟨tokens, feeds, ?_⟩, fun t' spender => ?_⟩
  · show constructor tokens feeds e.dsc = .ok e
    rw [(constructor_ok h).2.2.1]
    exact h
  · have hother : (1 : Address) ≠ 41 := by decide
    rcases eq_or_ne t' t with rfl | ht
    · simp [oneTokenWorld, ERC20.allow, ERC20.issue, ERC20.empty, hother]
    · simp [oneTokenWorld, ht, ERC20.empty]

/-- The value of an account is asked of the feed of every listed token, and the
zero address has none. -/
theorem not_counted_of_zero (h : constructor tokens feeds dsc = .ok e) {t : Address}
    (ht : t ∈ tokens) (hzero : e.priceFeeds t = 0) : ¬ CountedOnce e := by
  intro hcounted
  have htotal := hcounted 1 (oneTokenWorld e t) _ [] (oneTokenWorld_deployed h t) rfl (.nil _)
    dollarEnv 41 (fun _ => 0) ?_ (by simp [uintSize])
  · rw [← (constructor_feeds h).2.1] at ht
    obtain ⟨_, hvalue⟩ := total_loop_values htotal t ht
    simp only [getValueInUSD, getLatestRoundDataAndRevertIfStale, Result.bind_ok,
      Result.ofOption_ok] at hvalue
    obtain ⟨_, ⟨_, hround, -⟩, -⟩ := hvalue
    have hnone : dollarEnv.latestRoundData (e.priceFeeds t) = none := by
      rw [hzero]
      exact dollarEnv.no_feed_at_zero
    cases hnone.symm.trans hround
  · intro t' ht'
    show getValueInUSD dollarEnv e t' (e.collateralToUser 41 t') = .ok 0
    rw [(constructor_ok h).1 41 t']
    exact getValueInUSD_dollar (mem_allowedTokens.mp ht') (by decide)

/-- The account `41` deposits the one token it has. -/
theorem oneToken_deposit (h : constructor tokens feeds dsc = .ok e) {t : Address}
    (ht : e.priceFeeds t ≠ 0) :
    ∃ w, Step 1 (oneTokenWorld e t) ⟨41, dollarEnv, .engine (.depositCollateral t 1)⟩ w ∧
      ∀ t', w.engine.collateralToUser 41 t' = if t' = t then 1 else 0 := by
  obtain ⟨hnone, -, -, -, hfree⟩ := constructor_ok h
  have hspend : (oneTokenWorld e t).tokens t =
      (ERC20.empty.issue 41 1 (by decide)).allow 41 1 1 := by
    simp [oneTokenWorld]
  have hcan : CanDeposit depositorCtx (oneTokenWorld e t) t 1 := by
    refine ⟨by decide, ht, hfree, ?_, ?_, by decide, by decide⟩
    · show e.collateralToUser 41 t + 1 < uintSize
      rw [hnone]
      decide
    · rw [hspend]
      exact fun _ => by decide +kernel
  have hholds : 1 ≤ (((oneTokenWorld e t).tokens t).spend 41 1 1).balances 41 := by
    rw [hspend]
    decide +kernel
  refine ⟨_, ⟨depositorCtx.sender_ne, depositCollateral_ok.mpr ⟨hcan, hholds, rfl⟩⟩, fun t' => ?_⟩
  · rcases eq_or_ne t' t with rfl | hne
    · simp [depositedWorld, oneTokenWorld, hnone]
    · simp [depositedWorld, oneTokenWorld, hnone, hne]

/-- A token listed twice is valued twice. -/
theorem not_counted_of_duplicate (h : constructor tokens feeds dsc = .ok e)
    (hall : ∀ t ∈ tokens, e.priceFeeds t ≠ 0) {t : Address} (ht : [t, t].Sublist tokens) :
    ¬ CountedOnce e := by
  intro hcounted
  have hmem : t ∈ tokens := ht.subset List.mem_cons_self
  obtain ⟨w, hstep, hrecord⟩ := oneToken_deposit h (hall t hmem)
  have hrun : Run (Step 1) (oneTokenWorld e t) [_] w := .snoc (.nil _) hstep
  have hconfig := config_run hrun
  have hallowed : t ∈ allowedTokens w := by
    rw [mem_allowedTokens, hconfig.feeds]
    exact hall t hmem
  -- at one dollar the values are the recorded amounts: one of `t` and nothing else
  have hvalues : ∀ t' ∈ allowedTokens w,
      getValueInUSD dollarEnv w.engine t' (w.engine.collateralToUser 41 t') =
        .ok (if t' = t then 1 else 0) := by
    intro t' ht'
    rw [hrecord]
    exact getValueInUSD_dollar (mem_allowedTokens.mp ht') (by split <;> decide)
  have hone : ∑ t' ∈ allowedTokens w, (if t' = t then 1 else 0) = 1 := by
    rw [Finset.sum_ite_eq', if_pos hallowed]
  have htotal := hcounted 1 _ w _ (oneTokenWorld_deployed h t) rfl hrun dollarEnv 41 _ hvalues
    (by rw [hone]; decide)
  rw [hone] at htotal
  have hsum := getAccountTotalCollateralInUSD_ok htotal
  have htwice : 2 ≤ accountValue (quoted dollarEnv w.engine) w.engine 41 := by
    unfold accountValue
    rw [hconfig.tokens]
    show 2 ≤ (e.collateralTokens.map _).sum
    rw [(constructor_feeds h).2.1]
    have hle := (ht.map fun t => valueInUSD (quoted dollarEnv w.engine t)
      (w.engine.collateralToUser 41 t)).sum_le_sum fun _ _ => Nat.zero_le _
    have ht1 := getValueInUSD_ok (hvalues t hallowed)
    rw [if_pos rfl] at ht1
    rwa [List.map_cons, List.map_cons, ← ht1] at hle
  omega

end ListingLemmas

open ListingLemmas

/-- For every pair of lists the constructor accepts: the value of an account
counts every accepted token once, in every later state, exactly when no token is
listed twice and no feed is the zero address. -/
theorem counted_once_iff {tokens feeds : List Address} {dsc : Address} {e : DSCEngine}
    (h : constructor tokens feeds dsc = .ok e) :
    CountedOnce e ↔ tokens.Nodup ∧ 0 ∉ feeds := by
  constructor
  · intro hcounted
    have hall : ∀ t ∈ tokens, e.priceFeeds t ≠ 0 :=
      fun t ht hzero => not_counted_of_zero h ht hzero hcounted
    have hnodup : tokens.Nodup := by
      by_contra hnot
      obtain ⟨t, ht⟩ := List.exists_duplicate_iff_not_nodup.mpr hnot
      exact not_counted_of_duplicate h hall (List.duplicate_iff_sublist.mp ht) hcounted
    refine ⟨hnodup, fun hzero => ?_⟩
    obtain ⟨t, ht, hfeed⟩ := exists_of_feed h hnodup hzero
    exact hall t ht hfeed
  · rintro ⟨hnodup, hfeeds⟩
    exact countedOnce_of_distinct h hnodup hfeeds

/-- Two tokens with a feed each. -/
theorem counted_once_iff_two_tokens :
    ∃ e, constructor [34, 35] [36, 37] 2 = .ok e ∧ CountedOnce e := by
  have hbuilt : constructor [34, 35] [36, 37] 2 = .ok _ := rfl
  exact ⟨_, hbuilt, (counted_once_iff hbuilt).mpr ⟨by decide, by decide⟩⟩

/-- The engine at `1` with the token at `3` listed twice, and the account `5` with
five of them. -/
def twiceListedWorld : World :=
  { sampleWorld with engine := { sampleWorld.engine with collateralTokens := [3, 3] } }

/-- At two thousand dollars the account deposits one of them. -/
def depositOnce : List Msg :=
  [⟨5, sampleEnv price2000, .token 3 (.approve 1 (10 ^ 18))⟩,
   ⟨5, sampleEnv price2000, .engine (.depositCollateral 3 (10 ^ 18))⟩]

def depositedOnceWorld : World :=
  (depositOnce.foldlM (Msg.next 1) twiceListedWorld).get (by decide +kernel)

/-- The deposit is worth two thousand dollars and the account four thousand. -/
theorem listed_twice_counted_twice :
    constructor [3, 3] [4, 4] 2 = .ok twiceListedWorld.engine ∧ Deployed 1 twiceListedWorld ∧
      Run (Step 1) twiceListedWorld depositOnce depositedOnceWorld ∧
      allowedTokens depositedOnceWorld = {3} ∧
      getValueInUSD (sampleEnv price2000) depositedOnceWorld.engine 3
        (depositedOnceWorld.engine.collateralToUser 5 3) = .ok (2000 * 10 ^ 18) ∧
      getAccountTotalCollateralInUSD (sampleEnv price2000) depositedOnceWorld.engine 5 =
        .ok (4000 * 10 ^ 18) ∧
      ¬ CountedOnce twiceListedWorld.engine := by
  have hbuilt : constructor [3, 3] [4, 4] 2 = .ok twiceListedWorld.engine := by
    have hfeeds : update (update (fun _ : Address => (0 : Address)) 3 4) 3 4 =
        update (fun _ => 0) 3 4 := update_idem ..
    show Except.ok _ = Except.ok _
    simp [twiceListedWorld, sampleWorld, hfeeds]
  have hdeployed : Deployed 1 twiceListedWorld :=
    ⟨⟨_, _, hbuilt⟩, sampleWorld_deployed.no_allowance⟩
  have hrun : Run (Step 1) twiceListedWorld depositOnce depositedOnceWorld :=
    Run.of_foldlM (fun _ _ _ => step_of_next) (Option.some_get _).symm
  have hallowed : allowedTokens depositedOnceWorld = {3} := by
    rw [allowedTokens_eq hbuilt (config_run hrun) (by decide)]
    rfl
  have hvalue : getValueInUSD (sampleEnv price2000) depositedOnceWorld.engine 3
      (depositedOnceWorld.engine.collateralToUser 5 3) = .ok (2000 * 10 ^ 18) := by
    decide +kernel
  have htotal : getAccountTotalCollateralInUSD (sampleEnv price2000) depositedOnceWorld.engine 5 =
      .ok (4000 * 10 ^ 18) := by
    decide +kernel
  refine ⟨hbuilt, hdeployed, hrun, hallowed, hvalue, htotal, fun hcounted => ?_⟩
  have honce := hcounted 1 _ _ _ hdeployed rfl hrun (sampleEnv price2000) 5
    (fun _ => 2000 * 10 ^ 18)
    (by
      intro t ht
      rw [hallowed, Finset.mem_singleton] at ht
      rw [ht]
      exact hvalue)
    (by
      rw [hallowed, Finset.sum_singleton]
      decide)
  rw [hallowed, Finset.sum_singleton, htotal] at honce
  exact absurd (Except.ok.inj honce) (by decide)

end AdvFoundry.Dsc
