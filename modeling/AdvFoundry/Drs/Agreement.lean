import AdvFoundry.Drs.Effects
import AdvFoundry.Dsc.Positions
import AdvFoundry.OpenZeppelin.Renaming

/-!
# The two engines agree

`DSCEngine` and `StableCoinEngine` were written separately. They differ in their
guards and modifiers, in the order of a health check and the mint it is for, in
the staleness check and in the health factor of a user without debt. On standard
tokens with fresh feeds, and on calls with positive amounts and listed tokens,
none of this shows: `engines_agree` runs the two side by side and finds the same
successes and the same state after every call.

The engines and their coins are at addresses of their own, so the two systems are
compared up to a renaming of accounts that takes one engine to the other, one
coin to the other, and fixes the listed tokens.
-/

namespace AdvFoundry.Drs

open Function

/-- Two deployments over the same tokens and feeds: `DSCEngine` at `this` with
the coin `dsc`, and `StableCoinEngine` at `ρ this` with the coin `ρ dsc`. The
account that `a` stands for in the second system is `ρ a`. -/
structure Pair where
  ρ : Equiv.Perm Address
  this : Address
  dsc : Address
  tokens : List Address
  priceFeeds : List Address
  standard : Address → Bool
  zero : ρ 0 = 0
  this_ne : this ≠ 0
  listed : ∀ t ∈ tokens, ρ t = t ∧ standard t = true

namespace Pair

/-- The feed of each token, as both constructors store it. -/
def feeds (P : Pair) : Address → Address :=
  (P.tokens.zip P.priceFeeds).foldl (fun m p => update m p.1 p.2) fun _ => 0

/-- Every feed passes the check of `OracleLib`. -/
def Fresh (P : Pair) (env : Env) : Prop :=
  ∀ t ∈ P.tokens, ∃ round, Dsc.getLatestRoundDataAndRevertIfStale env (P.feeds t) = .ok round

/-- What neither system changes between calls. -/
structure Setup (P : Pair) (w₁ : Dsc.World) (w₂ : World) : Prop where
  feeds₁ : w₁.engine.priceFeeds = P.feeds
  feeds₂ : w₂.engine.tokenAddressToPriceFeed = P.feeds
  tokens₁ : w₁.engine.collateralTokens = P.tokens
  tokens₂ : w₂.engine.acceptedTokens = P.tokens
  coin₁ : w₁.engine.dsc = P.dsc
  coin₂ : w₂.engine.drs = P.ρ P.dsc
  free₁ : w₁.engine.entered = false
  free₂ : w₂.engine.entered = false
  owner₁ : w₁.dscOwner = P.this
  owner₂ : w₂.drsOwner = P.ρ P.this

/-- The two systems hold the same: recorded collateral and debt, and every token
with its balances, allowances and supply, the coins among them. -/
structure Agree (P : Pair) (w₁ : Dsc.World) (w₂ : World) : Prop where
  setup : P.Setup w₁ w₂
  collateral : ∀ u t, w₂.engine.collateralToUser (P.ρ u) (P.ρ t) = w₁.engine.collateralToUser u t
  debt : ∀ u, w₂.engine.userToDRSminted (P.ρ u) = w₁.engine.dscMinted u
  erc20 : ∀ t, (w₁.tokens t).Renamed P.ρ (w₂.tokens (P.ρ t))

/-- The call of the second engine that stands for a call of the first. -/
def mirror (P : Pair) : Dsc.EngineOp → EngineOp
  | .depositCollateral t a => .depositCollateral t a
  | .mintDSC a => .mintDRS a
  | .depositCollateralAndMintDSC t a m => .depositCollateralAndMintDRS t a m
  | .reedemCollateral t a => .reedemCollateral t a
  | .reedemCollateralAndBurnDSC t a b => .burnAndReedemCollateral t a b
  | .burnDSC a => .burnDRS a
  | .liquidate u t d => .liquidate (P.ρ u) t d

/-- All amounts are positive, and the collateral is one of the listed tokens. -/
def Admits (P : Pair) : Dsc.EngineOp → Prop
  | .depositCollateral t a => t ∈ P.tokens ∧ 0 < a
  | .mintDSC a => 0 < a
  | .depositCollateralAndMintDSC t a m => t ∈ P.tokens ∧ 0 < a ∧ 0 < m
  | .reedemCollateral t a => t ∈ P.tokens ∧ 0 < a
  | .reedemCollateralAndBurnDSC t a b => t ∈ P.tokens ∧ 0 < a ∧ 0 < b
  | .burnDSC a => 0 < a
  | .liquidate _ t d => t ∈ P.tokens ∧ 0 < d

/-- A call that both systems have: to the engine, or to any token. -/
inductive SharedCall
  | engine (op : Dsc.EngineOp)
  | token (token : Address) (op : TokenOp)

/-- A transaction of both systems: who makes which call in which block. -/
structure Msg (P : Pair) where
  sender : Address
  sender_ne : sender ≠ P.this
  env : Env
  call : SharedCall

/-- Agreement in the block `env`. -/
def AgreeAt (P : Pair) (env : Env) (w₁ : Dsc.World) (w₂ : World) : Prop :=
  P.Agree w₁ w₂ ∧ w₂.env = env

/-- A call of `sender` to the first engine. -/
abbrev first (P : Pair) (sender : Address) (env : Env) (h : sender ≠ P.this) : Dsc.Ctx :=
  ⟨P.this, sender, env, h⟩

/-- The call of the account that stands for `sender` to the second engine. -/
abbrev second (P : Pair) (sender : Address) (h : sender ≠ P.this) : Ctx :=
  ⟨P.ρ P.this, P.ρ sender, P.standard, fun he => h (P.ρ.injective he)⟩

section Messages

variable {P : Pair}

/-- The transaction in the first system. -/
def Msg.first (m : P.Msg) : Dsc.EngineTx Unit :=
  match m.call with
  | .engine op => (Dsc.Call.engine op).exec (P.first m.sender m.env m.sender_ne)
  | .token t op => (Dsc.Call.token t op).exec (P.first m.sender m.env m.sender_ne)

/-- Its mirror in the second. -/
def Msg.second (m : P.Msg) : EngineProc Unit :=
  match m.call with
  | .engine op => (Call.engine (P.mirror op)).exec (P.second m.sender m.sender_ne)
  | .token t op => (Call.token (P.ρ t) (op.rename P.ρ)).exec (P.second m.sender m.sender_ne)

/-- The feeds are fresh, and an engine call is one the comparison admits. -/
def Msg.Admissible (m : P.Msg) : Prop :=
  P.Fresh m.env ∧
    match m.call with
    | .engine op => P.Admits op
    | .token _ _ => True

end Messages

/-- One transaction of the first system, with whether it returned. -/
def FirstStep (P : Pair) (w : Dsc.World) (l : P.Msg × Bool) (w' : Dsc.World) : Prop :=
  l.1.first.succeeds w = l.2 ∧ w' = l.1.first.after w

/-- One transaction of the second system, in the block of the message. -/
def SecondStep (P : Pair) (w : World) (l : P.Msg × Bool) (w' : World) : Prop :=
  (l.1.second { w with env := l.1.env }).settled { w with env := l.1.env } = some (l.2, w')

/-- Both engines were just constructed, each owns its coin, and the tokens of the
two systems are the same. -/
structure Deployed (P : Pair) (w₁ : Dsc.World) (w₂ : World) : Prop where
  built₁ : Dsc.constructor P.tokens P.priceFeeds P.dsc = .ok w₁.engine
  built₂ : constructor P.tokens P.priceFeeds (P.ρ P.dsc) = .ok w₂.engine
  owner₁ : w₁.dscOwner = P.this
  owner₂ : w₂.drsOwner = P.ρ P.this
  erc20 : ∀ t, (w₁.tokens t).Renamed P.ρ (w₂.tokens (P.ρ t))

end Pair

namespace AgreementLemmas

variable {P : Pair} {env : Env} {w₁ : Dsc.World} {w₂ : World} {u t t' : Address} {amount : Nat}

theorem ne_zero_iff (P : Pair) {a : Address} : P.ρ a ≠ 0 ↔ a ≠ 0 := by
  constructor
  · rintro h rfl
    exact h P.zero
  · intro h he
    exact h (P.ρ.injective (he.trans P.zero.symm))

/-- A listed token is at the same address in both systems. -/
theorem listed_agree (h : P.Agree w₁ w₂) (ht : t ∈ P.tokens) (u : Address) :
    w₂.engine.collateralToUser (P.ρ u) t = w₁.engine.collateralToUser u t ∧
      (w₁.tokens t).Renamed P.ρ (w₂.tokens t) := by
  have hrecord := h.collateral u t
  have htoken := h.erc20 t
  rw [(P.listed t ht).1] at hrecord htoken
  exact ⟨hrecord, htoken⟩

/-! ## Health factors -/

/-- The answer of a fresh feed is the one read without a check. -/
theorem latestRoundData_of_fresh {feed : Address} {round : RoundData}
    (h : Dsc.getLatestRoundDataAndRevertIfStale env feed = .ok round) :
    env.latestRoundData feed = some round := by
  simp only [Dsc.getLatestRoundDataAndRevertIfStale, Result.bind_ok, Result.ofOption_ok,
    Result.pure_ok] at h
  obtain ⟨_, hround, _, -, _, -, _, -, rfl⟩ := h
  exact hround

theorem feed_ne_zero (hfresh : P.Fresh env) (ht : t ∈ P.tokens) : P.feeds t ≠ 0 := by
  intro he
  obtain ⟨round, hround⟩ := hfresh t ht
  rw [he] at hround
  cases env.no_feed_at_zero.symm.trans (latestRoundData_of_fresh hround)

/-- One round of the two loops over the listed tokens. -/
theorem value_agree (h : P.Agree w₁ w₂) (hfresh : P.Fresh env) (ht : t ∈ P.tokens)
    (total r : Nat) :
    (do let value ← Dsc.getValueInUSD env w₁.engine t (w₁.engine.collateralToUser u t)
        addU total value : Result Dsc.EngineError Nat) = .ok r ↔
    (do let price ← latestPrice env w₂.engine t
        let unit ← mulU price REMAINING_PRECISION
        let scaled ← mulU (w₂.engine.collateralToUser (P.ρ u) t) unit
        let value ← divU scaled PRECISION
        addU total value : Result EngineError Nat) = .ok r := by
  obtain ⟨round, hround⟩ := hfresh t ht
  have hanswer := latestRoundData_of_fresh hround
  have hrecord := (listed_agree h ht u).1
  simp only [Dsc.getValueInUSD, latestPrice, h.setup.feeds₁, h.setup.feeds₂, hround, hanswer, hrecord,
    Result.bind_ok, Result.ofOption_ok, Result.pure_ok, mulU_ok, divU_ok, addU_ok, Except.ok.injEq,
    Option.some.injEq, exists_eq_left', Dsc.ADDITIONAL_FEED_PRECISION, REMAINING_PRECISION,
    Dsc.PRECISION, PRECISION, Nat.mul_comm (w₁.engine.collateralToUser u t)]
  constructor
  · rintro ⟨_, ⟨_, hprice, _, hscaled, hvalue⟩, htotal⟩
    exact ⟨_, hprice, _, hscaled, _, hvalue, htotal⟩
  · rintro ⟨_, hprice, _, hscaled, _, hvalue, htotal⟩
    exact ⟨_, ⟨_, hprice, _, hscaled, hvalue⟩, htotal⟩

/-- The two loops over the listed tokens. -/
theorem total_loop_agree (h : P.Agree w₁ w₂) (hfresh : P.Fresh env) {tokens : List Address}
    (hlisted : ∀ t ∈ tokens, t ∈ P.tokens) {total r : Nat} :
    tokens.foldlM (fun totalCollateralInUSD token => do
      let value ← Dsc.getValueInUSD env w₁.engine token (w₁.engine.collateralToUser u token)
      addU totalCollateralInUSD value) total = (.ok r : Result Dsc.EngineError Nat) ↔
    tokens.foldlM (fun totalCollateralInRs token => do
      let price ← latestPrice env w₂.engine token
      let unit ← mulU price REMAINING_PRECISION
      let scaled ← mulU (w₂.engine.collateralToUser (P.ρ u) token) unit
      let value ← divU scaled PRECISION
      addU totalCollateralInRs value) total = (.ok r : Result EngineError Nat) := by
  induction tokens generalizing total with
  | nil => simp only [List.foldlM_nil, Result.pure_ok]
  | cons t ts ih =>
    have hhead := value_agree (u := u) h hfresh (hlisted t List.mem_cons_self)
    have htail := @ih fun t' ht' => hlisted t' (List.mem_cons_of_mem _ ht')
    rw [List.foldlM_cons, List.foldlM_cons, Result.bind_ok, Result.bind_ok]
    constructor
    · rintro ⟨total', hvalue, hrest⟩
      exact ⟨total', (hhead _ _).mp hvalue, (@htail total').mp hrest⟩
    · rintro ⟨total', hvalue, hrest⟩
      exact ⟨total', (hhead _ _).mpr hvalue, (@htail total').mpr hrest⟩

/-- The two health factors are the same number, but for a user without debt,
where any property that both sentinels have or both lack still agrees. -/
theorem health_agree (h : P.Agree w₁ w₂) (hfresh : P.Fresh env) {p : Nat → Prop}
    (hp : p uintMax ↔ p (2 ^ 96 - 1)) :
    (∃ f, Dsc.getHealthFactor env w₁.engine u = .ok f ∧ p f) ↔
      ∃ f, getHealthFactor env w₂.engine (P.ρ u) = .ok f ∧ p f := by
  have htotal : ∀ v, Dsc.getAccountTotalCollateralInUSD env w₁.engine u = .ok v ↔
      _getCollateralInUSD env w₂.engine (P.ρ u) = .ok v := by
    intro v
    rw [Dsc.getAccountTotalCollateralInUSD, _getCollateralInUSD, h.setup.tokens₁, h.setup.tokens₂]
    exact total_loop_agree h hfresh fun _ ht => ht
  have hfactor : ∀ v, (∃ f, Dsc._calculateHealthFactor (w₁.engine.dscMinted u) v = .ok f ∧ p f) ↔
      ∃ f, _getHealthFactor (w₁.engine.dscMinted u) v = .ok f ∧ p f := by
    intro v
    rw [Dsc._calculateHealthFactor, _getHealthFactor]
    split
    · simp only [Result.pure_ok, exists_eq_left', hp]
    · simp only [Result.bind_ok, mulU_ok, divU_ok]
      rfl
  simp only [Dsc.getHealthFactor, Dsc._getAccountInformation, getHealthFactor, _getAccountInformation,
    Result.bind_ok, Result.pure_ok, h.debt]
  constructor
  · rintro ⟨f, ⟨_, ⟨v, hv, rfl⟩, hf⟩, hpf⟩
    obtain ⟨f', hf', hpf'⟩ := (hfactor v).mp ⟨f, hf, hpf⟩
    exact ⟨f', ⟨_, ⟨v, (htotal v).mp hv, rfl⟩, hf'⟩, hpf'⟩
  · rintro ⟨f, ⟨_, ⟨v, hv, rfl⟩, hf⟩, hpf⟩
    obtain ⟨f', hf', hpf'⟩ := (hfactor v).mpr ⟨f, hf, hpf⟩
    exact ⟨f', ⟨_, ⟨v, (htotal v).mpr hv, rfl⟩, hf'⟩, hpf'⟩

theorem check_agree (h : P.Agree w₁ w₂) (hfresh : P.Fresh env) :
    Dsc._checkHealthFactorAndRevert env w₁.engine u = .ok () ↔
      _checkHealthFactorOrRevert env w₂.engine (P.ρ u) = .ok () := by
  rw [Dsc._checkHealthFactorAndRevert_ok, _checkHealthFactorOrRevert_ok]
  exact health_agree h hfresh (by decide)

theorem convert_agree (h : P.Agree w₁ w₂) (hfresh : P.Fresh env) (ht : t ∈ P.tokens)
    {debt r : Nat} :
    Dsc._convertDscToCollateral env w₁.engine t debt = .ok r ↔
      _convertDRStoCollateral env w₂.engine t debt = .ok r := by
  obtain ⟨round, hround⟩ := hfresh t ht
  have hanswer := latestRoundData_of_fresh hround
  simp only [Dsc._convertDscToCollateral, _convertDRStoCollateral, latestPrice, h.setup.feeds₁,
    h.setup.feeds₂, hround, hanswer, Result.bind_ok, Result.ofOption_ok, Result.pure_ok, mulU_ok,
    divU_ok, Except.ok.injEq, Option.some.injEq, exists_eq_left', Dsc.ADDITIONAL_FEED_PRECISION,
    REMAINING_PRECISION, Dsc.PRECISION, PRECISION]

/-- What a liquidation pays out. -/
theorem seizes_agree {c : Dsc.Ctx} {debt total : Nat} (h : P.Agree w₁ w₂) (hfresh : P.Fresh c.env)
    (henv : w₂.env = c.env) (ht : t ∈ P.tokens) :
    Dsc.Seizes c w₁ t debt total ↔ Seizes w₂ t debt total := by
  simp only [Seizes, henv, ← convert_agree h hfresh ht, Dsc._convertDscToCollateral_ok]
  constructor
  · rintro ⟨hround, hpriced, hprice, hdebt, hbonus, htotal, rfl⟩
    exact ⟨_, ⟨hround, hdebt, hprice, hpriced, rfl⟩, hbonus, htotal, rfl⟩
  · rintro ⟨_, ⟨hround, hdebt, hprice, hpriced, rfl⟩, hbonus, htotal, rfl⟩
    exact ⟨hround, hpriced, hprice, hdebt, hbonus, htotal, rfl⟩

/-! ## The writes -/

theorem agree_setMinted {n n' : Nat} (h : P.Agree w₁ w₂) (hn : n' = n) :
    P.Agree (w₁.setMinted u n) (w₂.setMinted (P.ρ u) n') := by
  subst hn
  exact ⟨{ h.setup with }, h.collateral, update_renamed h.debt u n', h.erc20⟩

theorem agree_setCollateral {n n' : Nat} (h : P.Agree w₁ w₂) (ht : P.ρ t = t') (hn : n' = n) :
    P.Agree (w₁.setCollateral u t n) (w₂.setCollateral (P.ρ u) t' n') := by
  subst ht
  subst hn
  exact ⟨{ h.setup with }, update_row_renamed h.collateral u t n', h.debt, h.erc20⟩

theorem agree_setToken {tk tk' : ERC20} (h : P.Agree w₁ w₂) (ht : P.ρ t = t')
    (htk : tk.Renamed P.ρ tk') : P.Agree (w₁.setToken t tk) (w₂.setToken t' tk') := by
  subst ht
  refine ⟨{ h.setup with }, h.collateral, h.debt, fun t₁ => ?_⟩
  by_cases ht : t₁ = t
  · subst ht
    simpa using htk
  · have hne : P.ρ t₁ ≠ P.ρ t := fun he => ht (P.ρ.injective he)
    simpa [ht, hne] using h.erc20 t₁

/-- The two coins: where they are, and what they hold. -/
theorem coin_agree (h : P.Agree w₁ w₂) :
    P.ρ w₁.engine.dsc = w₂.engine.drs ∧
      (w₁.tokens w₁.engine.dsc).Renamed P.ρ (w₂.tokens w₂.engine.drs) := by
  have haddress : P.ρ w₁.engine.dsc = w₂.engine.drs := by rw [h.setup.coin₁, h.setup.coin₂]
  rw [← haddress]
  exact ⟨rfl, h.erc20 w₁.engine.dsc⟩

/-! ## The moves -/

section Moves

variable {sender src : Address} {hne : sender ≠ P.this}

theorem lockstep_deposit (h : P.AgreeAt env w₁ w₂) (hfresh : P.Fresh env) (ht : t ∈ P.tokens)
    (hpos : 0 < amount) :
    Lockstep (P.AgreeAt env) (Dsc.depositCollateral (P.first sender env hne) t amount w₁)
      (_depositCollateral (P.second sender hne) t amount w₂) := by
  obtain ⟨h, henv⟩ := h
  obtain ⟨hfix, hstd⟩ := P.listed t ht
  obtain ⟨hrecord, htoken⟩ := listed_agree h ht sender
  refine Lockstep.of_iff (fun _ => Dsc.depositCollateral_ok) (fun _ => _depositCollateral_returned hstd)
    ?_ ?_ ?_
  · constructor
    · intro hcan
      exact ⟨h.setup.free₂, hrecord ▸ hcan.fits, (htoken.canSpend_iff P.zero).mpr hcan.approved,
        (ne_zero_iff P).mpr hcan.sender_ne, (ne_zero_iff P).mpr hcan.this_ne⟩
    · intro hcan
      exact ⟨hpos, h.setup.feeds₁ ▸ feed_ne_zero hfresh ht, h.setup.free₁, hrecord ▸ hcan.fits,
        (htoken.canSpend_iff P.zero).mp hcan.approved, (ne_zero_iff P).mp hcan.sender_ne,
        P.this_ne⟩
  · rw [htoken.spend.balances]
  · intro hfunds hfunds'
    exact ⟨agree_setToken (agree_setCollateral h hfix (by rw [hrecord])) hfix
      (htoken.spend.move hfunds hfunds'), henv⟩

/-- The one engine checks the health of the caller before the mint, the other
after it. -/
theorem lockstep_mint (h : P.AgreeAt env w₁ w₂) (hfresh : P.Fresh env) :
    Lockstep (P.AgreeAt env) (Dsc.mintDSC (P.first sender env hne) amount w₁)
      (mintDRS (P.second sender hne) amount w₂) := by
  obtain ⟨h, henv⟩ := h
  have hdebt := h.debt sender
  obtain ⟨hcoin, htoken⟩ := coin_agree h
  have hafter : P.Agree (w₁.setMinted sender (w₁.engine.dscMinted sender + amount))
      (w₂.setMinted (P.ρ sender) (w₂.engine.userToDRSminted (P.ρ sender) + amount)) :=
    agree_setMinted h (by rw [hdebt])
  refine Lockstep.of_iff (fun _ => Dsc.mintDSC_ok) (fun _ => mintDRS_returned) ?_ ?_ ?_
  · rw [henv, ← check_agree hafter hfresh]
    constructor
    · intro hcan
      exact ⟨⟨h.setup.free₂, hcan.pos, hdebt ▸ hcan.fits, h.setup.owner₂,
        (ne_zero_iff P).mpr hcan.sender_ne⟩, hcan.healthy⟩
    · rintro ⟨hcan, hcheck⟩
      exact ⟨hcan.pos, hdebt ▸ hcan.fits, hcheck, h.setup.owner₁, (ne_zero_iff P).mp hcan.sender_ne,
        P.this_ne⟩
  · rw [htoken.totalSupply]
  · intro hroom hroom'
    exact ⟨agree_setToken hafter hcoin (htoken.issue hroom hroom'), henv⟩

theorem lockstep_burn {debtor : Address} (h : P.AgreeAt env w₁ w₂) :
    Lockstep (P.AgreeAt env) (Dsc._burnDSC (P.first sender env hne) amount debtor sender w₁)
      (_burn (P.second sender hne) (P.ρ sender) (P.ρ debtor) amount w₂) := by
  obtain ⟨h, henv⟩ := h
  have hdebt := h.debt debtor
  obtain ⟨hcoin, htoken⟩ := coin_agree h
  refine Lockstep.of_iff (fun _ => Dsc._burnDSC_ok) (fun _ => _burn_returned) ?_ ?_ ?_
  · constructor
    · intro hcan
      exact ⟨hdebt ▸ hcan.debt, (htoken.canSpend_iff P.zero).mpr hcan.approved,
        (ne_zero_iff P).mpr hcan.payer_ne, (ne_zero_iff P).mpr hcan.this_ne, h.setup.owner₂, hcan.pos⟩
    · intro hcan
      exact ⟨hdebt ▸ hcan.debt, (htoken.canSpend_iff P.zero).mp hcan.approved,
        (ne_zero_iff P).mp hcan.payer_ne, P.this_ne, h.setup.owner₁, hcan.pos⟩
  · rw [htoken.spend.balances]
  · intro hfunds hfunds'
    exact ⟨agree_setToken (agree_setMinted h (by rw [hdebt])) hcoin
      (htoken.spend.destroy hfunds hfunds'), henv⟩

theorem lockstep_reedem (h : P.AgreeAt env w₁ w₂) (ht : t ∈ P.tokens) :
    Lockstep (P.AgreeAt env) (Dsc._reedemCollateral (P.first sender env hne) src sender t amount w₁)
      (_reedemCollateral (P.second sender hne) (P.ρ src) (P.ρ sender) t amount w₂) := by
  obtain ⟨h, henv⟩ := h
  obtain ⟨hfix, hstd⟩ := P.listed t ht
  obtain ⟨hrecord, htoken⟩ := listed_agree h ht src
  have hfirst : ∀ w₁', Dsc._reedemCollateral (P.first sender env hne) src sender t amount w₁ =
      .ok ((), w₁') ↔ (amount ≤ w₁.engine.collateralToUser src t ∧ P.this ≠ 0 ∧ sender ≠ 0) ∧
        ∃ h, w₁' = Dsc.reedemedWorld w₁ P.this src sender t amount h := by
    intro w₁'
    rw [Dsc._reedemCollateral_ok, and_assoc, and_assoc]
  have hsecond : ∀ w₂', _reedemCollateral (P.second sender hne) (P.ρ src) (P.ρ sender) t amount w₂ =
      .returned () w₂' ↔ (w₂.engine.entered = false ∧
        amount ≤ w₂.engine.collateralToUser (P.ρ src) t ∧ P.ρ P.this ≠ 0 ∧ P.ρ sender ≠ 0) ∧
        ∃ h, w₂' = reedemedWorld w₂ (P.ρ P.this) (P.ρ src) (P.ρ sender) t amount h := by
    intro w₂'
    rw [_reedemCollateral_returned hstd, and_assoc, and_assoc, and_assoc]
  refine Lockstep.of_iff hfirst hsecond ?_ ?_ ?_
  · rw [hrecord, ne_zero_iff, ne_zero_iff]
    exact ⟨fun hcan => ⟨h.setup.free₂, hcan⟩, fun hcan => hcan.2⟩
  · rw [htoken.balances]
  · intro hheld hheld'
    exact ⟨agree_setToken (agree_setCollateral h hfix (by rw [hrecord])) hfix
      (htoken.move hheld hheld'), henv⟩

end Moves

/-! ## The public functions -/

section Functions

variable {sender : Address} {hne : sender ≠ P.this}

theorem lockstep_withdraw (h : P.AgreeAt env w₁ w₂) (hfresh : P.Fresh env) (ht : t ∈ P.tokens)
    (hpos : 0 < amount) :
    Lockstep (P.AgreeAt env) (Dsc.reedemCollateral (P.first sender env hne) t amount w₁)
      (reedemCollateral (P.second sender hne) t amount w₂) := by
  have hmove : Lockstep (P.AgreeAt env)
      (Dsc._reedemCollateral (P.first sender env hne) sender sender t amount w₁)
      (_reedemCollateral (P.second sender hne) (P.ρ sender) (P.ρ sender) t amount w₂) :=
    lockstep_reedem h ht
  refine Lockstep.check
    (fun w₁' => Dsc._checkHealthFactorAndRevert env w₁'.engine sender = .ok ())
    (fun w₂' => _checkHealthFactorOrRevert w₂'.env w₂'.engine (P.ρ sender) = .ok ())
    (fun w₁' => ?_) (fun w₂' => ?_) hmove fun w₁' w₂' hafter => ?_
  · rw [Dsc.reedemCollateral_ok]
    exact ⟨fun hr => hr.2.2, fun hr => ⟨hpos, h.1.setup.free₁, hr⟩⟩
  · rw [reedemCollateral_returned]
    exact ⟨fun hr => hr.2, fun hr => ⟨hpos, hr⟩⟩
  · rw [hafter.2]
    exact check_agree hafter.1 hfresh

theorem lockstep_repay (h : P.AgreeAt env w₁ w₂) :
    Lockstep (P.AgreeAt env) (Dsc.burnDSC (P.first sender env hne) amount w₁)
      (burnDRS (P.second sender hne) amount w₂) := by
  have hmove : Lockstep (P.AgreeAt env)
      (Dsc._burnDSC (P.first sender env hne) amount sender sender w₁)
      (_burn (P.second sender hne) (P.ρ sender) (P.ρ sender) amount w₂) := lockstep_burn h
  refine Lockstep.congr (fun w₁' => ?_) (fun w₂' => burnDRS_returned) hmove
  rw [Dsc.burnDSC_ok]
  exact ⟨fun hr => hr.2, fun hr => ⟨h.1.setup.free₁, hr⟩⟩

theorem lockstep_liquidate {badUser : Address} {debt : Nat} (h : P.AgreeAt env w₁ w₂)
    (hfresh : P.Fresh env) (ht : t ∈ P.tokens) :
    Lockstep (P.AgreeAt env) (Dsc.liquidate (P.first sender env hne) badUser t debt w₁)
      (liquidate (P.second sender hne) (P.ρ badUser) t debt w₂) := by
  obtain ⟨hagree, henv⟩ := h
  -- a health factor of at most the minimum is none of the two sentinels
  have hstart : ∀ start, start ≤ MINIMUM_HEALTH_FACTOR →
      (Dsc.getHealthFactor env w₁.engine badUser = .ok start ↔
        getHealthFactor w₂.env w₂.engine (P.ρ badUser) = .ok start) := by
    intro start hmin
    have hiff := health_agree (u := badUser) (p := (· = start)) hagree hfresh (by
      simp only [MINIMUM_HEALTH_FACTOR, uintMax] at hmin ⊢
      omega)
    simpa [henv] using hiff
  -- above it, both sentinels are
  have hfinal : ∀ start w₁' w₂', start ≤ MINIMUM_HEALTH_FACTOR → P.AgreeAt env w₁' w₂' →
      ((∃ final, Dsc.getHealthFactor env w₁'.engine badUser = .ok final ∧ start < final) ↔
        ∃ final, getHealthFactor w₂'.env w₂'.engine (P.ρ badUser) = .ok final ∧ start < final) := by
    intro start w₁' w₂' hmin hafter
    rw [hafter.2]
    refine health_agree (p := (start < ·)) hafter.1 hfresh ?_
    simp only [MINIMUM_HEALTH_FACTOR, uintMax] at hmin ⊢
    omega
  constructor
  · intro w₁' hok
    obtain ⟨hpos, howed, start, hhealth, hmin, total, hseizes, v₁, hburn, hreedem, hend⟩ :=
      Dsc.liquidate_ok.mp hok
    obtain ⟨v₂, hburn', hv⟩ := (lockstep_burn ⟨hagree, henv⟩).forth v₁ hburn
    obtain ⟨w₂', hreedem', hw⟩ := (lockstep_reedem hv ht).forth w₁' hreedem
    exact ⟨w₂', liquidate_returned.mpr ⟨hpos, hagree.debt badUser ▸ howed, start,
      (hstart start hmin).mp hhealth, hmin, total, (seizes_agree hagree hfresh henv ht).mp hseizes, v₂,
      hburn', hreedem', (hfinal start _ _ hmin hw).mp hend⟩, hw⟩
  · intro w₂' hreturned
    obtain ⟨hpos, howed, start, hhealth, hmin, total, hseizes, v₂, hburn, hreedem, hend⟩ :=
      liquidate_returned.mp hreturned
    obtain ⟨v₁, hburn', hv⟩ := (lockstep_burn ⟨hagree, henv⟩).back v₂ hburn
    obtain ⟨w₁', hreedem', hw⟩ := (lockstep_reedem hv ht).back w₂' hreedem
    exact ⟨w₁', Dsc.liquidate_ok.mpr ⟨hpos, hagree.debt badUser ▸ howed, start,
      (hstart start hmin).mpr hhealth, hmin, total, (seizes_agree hagree hfresh henv ht).mpr hseizes,
      v₁, hburn', hreedem', (hfinal start _ _ hmin hw).mpr hend⟩, hw⟩

/-- Every call of the first engine that the comparison admits, and its mirror. -/
theorem lockstep_engine {op : Dsc.EngineOp} (h : P.AgreeAt env w₁ w₂) (hfresh : P.Fresh env)
    (hop : P.Admits op) :
    Lockstep (P.AgreeAt env) (op.exec (P.first sender env hne) w₁)
      ((P.mirror op).exec (P.second sender hne) w₂) := by
  cases op with
  | depositCollateral t a =>
    refine Lockstep.congr (fun w₁' => Iff.rfl) (fun w₂' => ?_) (lockstep_deposit h hfresh hop.1 hop.2)
    show depositCollateral _ t a w₂ = .returned () w₂' ↔ _
    rw [depositCollateral_returned]
    exact ⟨fun hr => hr.2, fun hr => ⟨hop.2, hr⟩⟩
  | mintDSC a => exact lockstep_mint h hfresh
  | depositCollateralAndMintDSC t a m =>
    exact Lockstep.seq (fun _ => Dsc.depositCollateralAndMintDSC_ok)
      (fun _ => depositCollateralAndMintDRS_returned) (lockstep_deposit h hfresh hop.1 hop.2.1)
      fun _ _ hafter => lockstep_mint hafter hfresh
  | reedemCollateral t a => exact lockstep_withdraw h hfresh hop.1 hop.2
  | reedemCollateralAndBurnDSC t a b =>
    exact Lockstep.seq (fun _ => Dsc.reedemCollateralAndBurnDSC_ok)
      (fun _ => burnAndReedemCollateral_returned hop.2.1) (lockstep_repay h)
      fun _ _ hafter => lockstep_withdraw hafter hfresh hop.1 hop.2.1
  | burnDSC a => exact lockstep_repay h
  | liquidate b t d => exact lockstep_liquidate h hfresh hop.1

/-- A call of any token. What it sends to the engine is noted and not read. -/
theorem lockstep_token {op : TokenOp} (h : P.AgreeAt env w₁ w₂) :
    Lockstep (P.AgreeAt env) ((Dsc.Call.token t op).exec (P.first sender env hne) w₁)
      ((Call.token (P.ρ t) (op.rename P.ρ)).exec (P.second sender hne) w₂) := by
  obtain ⟨h, henv⟩ := h
  have hfirst : ∀ w₁', (Dsc.Call.token t op).exec (P.first sender env hne) w₁ = .ok ((), w₁') ↔
      ∃ tk, op.exec sender (w₁.tokens t) = .ok ((), tk) ∧ w₁' = w₁.setToken t tk :=
    fun _ => Dsc.callToken_ok
  have hsecond : ∀ w₂', (Call.token (P.ρ t) (op.rename P.ρ)).exec (P.second sender hne) w₂ =
      .returned () w₂' ↔
      ∃ tk, (op.rename P.ρ).exec (P.ρ sender) (w₂.tokens (P.ρ t)) = .ok ((), tk) ∧
        w₂' = { w₂.setToken (P.ρ t) tk with
          sent := credit w₂.sent (P.ρ t) ((op.rename P.ρ).sentTo (P.ρ P.this)) } := by
    intro w₂'
    simp only [Call.exec, Proc.tx_returned, Tx.bind_ok, userCall_ok, noteSent_ok]
    constructor
    · rintro ⟨_, _, ⟨tk, htk, rfl⟩, rfl⟩
      exact ⟨tk, htk, rfl⟩
    · rintro ⟨tk, htk, rfl⟩
      exact ⟨(), _, ⟨tk, htk, rfl⟩, rfl⟩
  have hafter : ∀ {tk tk' : ERC20} {sent}, tk.Renamed P.ρ tk' → P.AgreeAt env (w₁.setToken t tk)
      { w₂.setToken (P.ρ t) tk' with sent := sent } := by
    intro tk tk' sent htk
    have hwrite := agree_setToken h (rfl : P.ρ t = P.ρ t) htk
    exact ⟨⟨{ hwrite.setup with }, hwrite.collateral, hwrite.debt, hwrite.erc20⟩, henv⟩
  constructor
  · intro w₁' hok
    obtain ⟨tk, htk, rfl⟩ := (hfirst w₁').mp hok
    obtain ⟨tk', htk', hrenamed⟩ := (h.erc20 t).exec P.zero htk
    exact ⟨_, (hsecond _).mpr ⟨tk', htk', rfl⟩, hafter hrenamed⟩
  · intro w₂' hreturned
    obtain ⟨tk', htk', rfl⟩ := (hsecond w₂').mp hreturned
    -- the renaming back is a renaming too
    have hzero : P.ρ.symm 0 = 0 := by rw [Equiv.symm_apply_eq, P.zero]
    obtain ⟨tk, htk, hrenamed⟩ := (h.erc20 t).symm.exec hzero htk'
    rw [TokenOp.rename_symm, Equiv.symm_apply_apply] at htk
    exact ⟨_, (hfirst _).mpr ⟨tk, htk, rfl⟩, hafter hrenamed.symm⟩

end Functions

/-! ## Transactions -/

theorem settles_second {m : P.Msg} (hm : m.Admissible) (w : World) : Settles (m.second w) := by
  obtain ⟨-, hadmits⟩ := hm
  rcases m with ⟨sender, hne, env, call⟩
  cases call with
  | engine op =>
    refine settles_engine (P.mirror op) fun t ht => ?_
    cases op with
    | mintDSC a | burnDSC a => cases ht
    | depositCollateral t' a | depositCollateralAndMintDSC t' a m | reedemCollateral t' a
    | reedemCollateralAndBurnDSC t' a b | liquidate b t' d =>
      cases ht
      exact (P.listed _ hadmits.1).2
  | token t op => exact SettleLemmas.settles_tx

/-- One transaction in both systems. -/
theorem step_agree {m : P.Msg} (h : P.Agree w₁ w₂) (hm : m.Admissible) :
    ∃ w₂', P.SecondStep w₂ (m, m.first.succeeds w₁) w₂' ∧ P.Agree (m.first.after w₁) w₂' := by
  have hblock : P.AgreeAt m.env w₁ { w₂ with env := m.env } :=
    ⟨⟨{ h.setup with }, h.collateral, h.debt, h.erc20⟩, rfl⟩
  have hlockstep : Lockstep (P.AgreeAt m.env) (m.first w₁) (m.second { w₂ with env := m.env }) := by
    rcases m with ⟨sender, hne, env, call⟩
    cases call with
    | engine op => exact lockstep_engine hblock hm.1 hm.2
    | token t op => exact lockstep_token hblock
  obtain ⟨w₂', hstep, hafter⟩ := hlockstep.settled (settles_second hm _) hblock
  exact ⟨w₂', hstep, hafter.1⟩

theorem deployed_agree (h : P.Deployed w₁ w₂) : P.Agree w₁ w₂ := by
  have hbuilt₁ := h.built₁
  have hbuilt₂ := h.built₂
  simp only [Dsc.constructor, Result.bind_ok, Result.pure_ok] at hbuilt₁
  simp only [constructor, Result.bind_ok] at hbuilt₂
  obtain ⟨_, -, he₁⟩ := hbuilt₁
  obtain ⟨_, -, hbuilt₂⟩ := hbuilt₂
  split at hbuilt₂
  · have he₂ := Result.pure_ok.mp hbuilt₂
    rcases w₁ with ⟨engine₁, erc20₁, owner₁⟩
    rcases w₂ with ⟨engine₂, erc20₂, owner₂, env, sent⟩
    cases he₁
    cases he₂
    exact ⟨⟨rfl, rfl, rfl, rfl, rfl, rfl, rfl, rfl, h.owner₁, h.owner₂⟩, fun _ _ => rfl, fun _ => rfl,
      h.erc20⟩
  · cases hbuilt₂

end AgreementLemmas

open AgreementLemmas

/-- Whatever both systems are asked to do from their deployment on, they do alike:
for every sequence of admissible transactions, in blocks with any fresh prices,
the two have the same outcome, success or revert, at every step, and the same
records, balances and supplies at the end. -/
theorem engines_agree {P : Pair} {w₁ : Dsc.World} {w₂ : World} (h₀ : P.Deployed w₁ w₂)
    (msgs : List P.Msg) (hmsgs : ∀ m ∈ msgs, m.Admissible) :
    ∃ (labels : List (P.Msg × Bool)) (w₁' : Dsc.World) (w₂' : World), labels.map Prod.fst = msgs ∧
      Run P.FirstStep w₁ labels w₁' ∧ Run P.SecondStep w₂ labels w₂' ∧ P.Agree w₁' w₂' := by
  induction msgs using List.reverseRecOn with
  | nil => exact ⟨[], w₁, w₂, rfl, .nil w₁, .nil w₂, deployed_agree h₀⟩
  | append_singleton msgs m ih =>
    obtain ⟨labels, v₁, v₂, hlabels, hrun₁, hrun₂, hagree⟩ :=
      ih fun m' hm' => hmsgs m' (List.mem_append_left _ hm')
    obtain ⟨w₂', hstep, hafter⟩ := step_agree hagree (hmsgs m (by simp))
    refine ⟨labels ++ [(m, m.first.succeeds v₁)], m.first.after v₁, w₂', ?_, .snoc hrun₁ ⟨rfl, rfl⟩,
      .snoc hrun₂ hstep, hafter⟩
    simp [hlabels]

/-- The deployment of `Dsc.sampleWorld` beside one of `StableCoinEngine` at `21`
with its coin at `22`. -/
def samplePair : Pair where
  ρ := (Equiv.swap (1 : Address) 21).trans (Equiv.swap 2 22)
  this := 1
  dsc := 2
  tokens := [3]
  priceFeeds := [4]
  standard := fun t => t = 3
  zero := by decide
  this_ne := by decide
  listed := by
    intro t ht
    cases List.mem_singleton.mp ht
    decide

def mirroredWorld : World where
  engine :=
    { tokenAddressToPriceFeed := update (fun _ => 0) 3 4
      userToDRSminted := fun _ => 0
      collateralToUser := fun _ _ => 0
      acceptedTokens := [3]
      drs := 22
      entered := false }
  tokens := Dsc.sampleWorld.tokens
  drsOwner := 21
  env := Dsc.sampleEnv Dsc.price2000
  sent := fun _ => 0

theorem samplePair_deployed : samplePair.Deployed Dsc.sampleWorld mirroredWorld := by
  refine ⟨rfl, rfl, rfl, rfl, fun t => ?_⟩
  have hempty : ERC20.empty.Renamed samplePair.ρ ERC20.empty :=
    ⟨fun _ => rfl, fun _ _ => rfl, rfl⟩
  by_cases ht : t = 3
  · subst ht
    have hroom : ERC20.empty.totalSupply + 5 * 10 ^ 18 < uintSize := by decide
    have hissued : (ERC20.empty.issue 5 (5 * 10 ^ 18) hroom).Renamed samplePair.ρ
        (ERC20.empty.issue (samplePair.ρ 5) (5 * 10 ^ 18) hroom) := hempty.issue hroom hroom
    exact hissued
  · have ht' : samplePair.ρ t ≠ 3 := by
      intro he
      have hfix : samplePair.ρ 3 = 3 := by decide
      exact ht (samplePair.ρ.injective (he.trans hfix.symm))
    simpa [Dsc.sampleWorld, mirroredWorld, ht, ht'] using hempty

/-- The borrower opens a position at the limit, asks for one unit more in vain,
and sends coins to the account `6` after the price fell. -/
def sampleMsgs : List samplePair.Msg :=
  [⟨5, by decide, Dsc.sampleEnv Dsc.price2000, .token 3 (.approve 1 (10 ^ 18))⟩,
   ⟨5, by decide, Dsc.sampleEnv Dsc.price2000,
    .engine (.depositCollateralAndMintDSC 3 (10 ^ 18) (10 ^ 21))⟩,
   ⟨5, by decide, Dsc.sampleEnv Dsc.price2000, .engine (.mintDSC 1)⟩,
   ⟨5, by decide, Dsc.sampleEnv Dsc.price1600, .token 2 (.transfer 6 (10 ^ 20))⟩]

theorem sampleMsgs_admissible : ∀ m ∈ sampleMsgs, m.Admissible := by
  have hfresh : ∀ price, samplePair.Fresh (Dsc.sampleEnv price) := by
    intro price t ht
    cases List.mem_singleton.mp ht
    exact ⟨_, Dsc.sampleEnv_fresh price⟩
  intro m hm
  simp only [sampleMsgs, List.mem_cons, List.not_mem_nil, or_false] at hm
  rcases hm with rfl | rfl | rfl | rfl
  · exact ⟨hfresh _, trivial⟩
  · exact ⟨hfresh _, List.mem_singleton.mpr rfl, by decide, by decide⟩
  · exact ⟨hfresh _, Nat.one_pos⟩
  · exact ⟨hfresh _, trivial⟩

/-- The transactions of a run determine where it ends. -/
theorem first_run {P : Pair} {w w' : Dsc.World} {labels : List (P.Msg × Bool)}
    (hrun : Run P.FirstStep w labels w') :
    w' = (labels.map Prod.fst).foldl (fun w m => m.first.after w) w := by
  induction hrun with
  | nil => rfl
  | snoc _ hstep ih =>
    rw [List.map_append, List.foldl_append, ← ih]
    exact hstep.2

/-- At the end `StableCoinEngine` has the loan of a thousand on record, and the
account `6` has a tenth of it at the coin `22`. -/
theorem engines_agree_opened :
    ∃ (labels : List (samplePair.Msg × Bool)) (w₁ : Dsc.World) (w₂ : World),
      labels.map Prod.fst = sampleMsgs ∧
      Run samplePair.FirstStep Dsc.sampleWorld labels w₁ ∧
      Run samplePair.SecondStep mirroredWorld labels w₂ ∧
      w₂.engine.userToDRSminted 5 = 10 ^ 21 ∧ (w₂.tokens 22).balances 6 = 10 ^ 20 := by
  obtain ⟨labels, w₁, w₂, hlabels, hrun₁, hrun₂, hagree⟩ :=
    engines_agree samplePair_deployed sampleMsgs sampleMsgs_admissible
  refine ⟨labels, w₁, w₂, hlabels, hrun₁, hrun₂, ?_, ?_⟩
  · have hdebt := hagree.debt 5
    rw [first_run hrun₁, hlabels] at hdebt
    exact hdebt.trans (by decide +kernel)
  · have hcoins := (hagree.erc20 2).balances 6
    rw [first_run hrun₁, hlabels] at hcoins
    exact hcoins.trans (by decide +kernel)

end AdvFoundry.Drs
