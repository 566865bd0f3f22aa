import AdvFoundry.Chainlink.Feed
import AdvFoundry.Dsc.Coin

/-!
# DSCEngine

`Decentralised-StableCoin/src/DSCEngine.sol` and the price check it uses,
`Decentralised-StableCoin/src/library/OracleLib.sol`, function by function.

The engine's world is its own storage, the storage of every token contract,
and the owner of the stablecoin. The stablecoin is the token at `engine.dsc`;
it may also be listed as collateral. What a call reads from outside (who
called, the block time, the answers of the price feeds) is its `Ctx`. Events
are not part of the world: nothing reads them.
-/

namespace AdvFoundry.Dsc

open Function

/-- What one call reads from outside the contracts: `address(this)`,
`msg.sender` and the block. The engine makes no external call to itself, so it
is never its own caller. -/
structure Ctx where
  this : Address
  sender : Address
  env : Env
  sender_ne : sender ≠ this

/-- The errors a call of the engine can give: its own, and those of the
contracts and the library it calls. -/
inductive EngineError
  | amountCannotBeZero
  | tokenNotAllowed (collateralAddress : Address)
  | failedToSetCollateralAddresses
  | transferFailed
  | mintFailed
  | healthFactorTooLow
  | burnFailed
  | healthFactorNotChanged
  | notLiquidatable
  | debtIsLow
  | staleOracleData
  | reentrantCall
  | coin (e : CoinError)
  | token (e : ERC20Error)
  deriving DecidableEq

/-- `OracleLib.getLatestRoundDataAndRevertIfStale`: an answer counts as fresh
for `3 hours` after the round *started*. -/
def getLatestRoundDataAndRevertIfStale (env : Env) (priceFeed : Address) :
    Result EngineError RoundData := do
  let round ← Result.ofOption (env.latestRoundData priceFeed)
  Result.revertIf (round.updatedAt = 0 ∨ round.roundId > round.answeredInRound) .staleOracleData
  let startedSince ← subU env.timestamp round.startedAt
  Result.revertIf (startedSince > 3 * 60 * 60) .staleOracleData
  pure round

/-! ## Storage -/

/-- Storage of `DSCEngine`: `s_priceFeeds`, `s_collateralToUser`,
`s_DscMinted`, `i_dsc`, `s_CollateralTokens` and the guard. -/
structure DSCEngine where
  priceFeeds : Address → Address
  collateralToUser : Address → Address → Nat
  dscMinted : Address → Nat
  dsc : Address
  collateralTokens : List Address
  entered : Bool

/-- The engine and the contracts it calls. -/
structure World where
  engine : DSCEngine
  tokens : Address → ERC20
  dscOwner : Address

abbrev EngineTx := Tx EngineError World

def LIQUIDATION_THRESHOLD : Nat := 50
def LIQUIDATION_PRECISION : Nat := 100
def LIQUIDATION_BONUS : Nat := 10
def MIN_HEALTH_FACTOR : Nat := 10 ^ 18
def PRECISION : Nat := 10 ^ 18
def ADDITIONAL_FEED_PRECISION : Nat := 10 ^ 10

/-- `DSCEngine`'s constructor. A token listed twice is pushed twice, and the
later feed stays. -/
def constructor (tokenAddresses priceFeeds : List Address) (dsc : Address) :
    Result EngineError DSCEngine := do
  Result.revertIf (tokenAddresses.length ≠ priceFeeds.length) .failedToSetCollateralAddresses
  pure
    { priceFeeds := (tokenAddresses.zip priceFeeds).foldl (fun m p => update m p.1 p.2) fun _ => 0
      collateralToUser := fun _ _ => 0
      dscMinted := fun _ => 0
      dsc := dsc
      collateralTokens := tokenAddresses
      entered := false }

/-! ## View functions -/

section Views

variable (env : Env) (e : DSCEngine)

def getValueInUSD (token : Address) (amount : Nat) : Result EngineError Nat := do
  let round ← getLatestRoundDataAndRevertIfStale env (e.priceFeeds token)
  let price ← mulU round.answer.toUint256 ADDITIONAL_FEED_PRECISION
  let value ← mulU price amount
  divU value PRECISION

def getAccountTotalCollateralInUSD (user : Address) : Result EngineError Nat :=
  e.collateralTokens.foldlM (fun totalCollateralInUSD token => do
    let value ← getValueInUSD env e token (e.collateralToUser user token)
    addU totalCollateralInUSD value) 0

def _getAccountInformation (user : Address) : Result EngineError (Nat × Nat) := do
  let totalMinted := e.dscMinted user
  let totalCollateralInUSD ← getAccountTotalCollateralInUSD env e user
  pure (totalMinted, totalCollateralInUSD)

def _calculateHealthFactor (totalMinted totalCollateralInUSD : Nat) : Result EngineError Nat :=
  if totalMinted = 0 then pure uintMax
  else do
    let scaled ← mulU totalCollateralInUSD LIQUIDATION_THRESHOLD
    let collateralAdjustedForLiquidationThreshold ← divU scaled LIQUIDATION_PRECISION
    let adjusted ← mulU collateralAdjustedForLiquidationThreshold PRECISION
    divU adjusted totalMinted

def getHealthFactor (user : Address) : Result EngineError Nat := do
  let (totalMinted, totalCollateralInUSD) ← _getAccountInformation env e user
  _calculateHealthFactor totalMinted totalCollateralInUSD

def _checkHealthFactorAndRevert (user : Address) : Result EngineError Unit := do
  let healthfactor ← getHealthFactor env e user
  Result.revertIf (healthfactor < MIN_HEALTH_FACTOR) .healthFactorTooLow

def _convertDscToCollateral (collateralAddress : Address) (debtToCover : Nat) :
    Result EngineError Nat := do
  let round ← getLatestRoundDataAndRevertIfStale env (e.priceFeeds collateralAddress)
  let scaled ← mulU debtToCover PRECISION
  let price ← mulU round.answer.toUint256 ADDITIONAL_FEED_PRECISION
  divU scaled price

end Views

/-! ## Storage writes -/

namespace World

variable (w : World)

/-- `s_DscMinted[user] = amount`. -/
def setMinted (user : Address) (amount : Nat) : World :=
  { w with engine := { w.engine with dscMinted := update w.engine.dscMinted user amount } }

/-- `s_collateralToUser[user][token] = amount`. -/
def setCollateral (user token : Address) (amount : Nat) : World :=
  { w with engine := { w.engine with
      collateralToUser := update w.engine.collateralToUser user
        (update (w.engine.collateralToUser user) token amount) } }

/-- The storage of the contract at `token` after a call into it. -/
def setToken (token : Address) (t : ERC20) : World :=
  { w with tokens := update w.tokens token t }

def setEntered (b : Bool) : World :=
  { w with engine := { w.engine with entered := b } }

/-- The storage of the stablecoin contract. -/
def coin : DecentralisedStableCoin := ⟨w.tokens w.engine.dsc, w.dscOwner⟩

def setCoin (c : DecentralisedStableCoin) : World :=
  { w.setToken w.engine.dsc c.erc20 with dscOwner := c.owner }

end World

/-- A call of a function of the token at `token`. -/
def callToken {α : Type} (token : Address) (x : Tx ERC20Error ERC20 α) : EngineTx α :=
  Tx.call (fun w => w.tokens token) (fun t w => w.setToken token t) .token x

/-- A call of a function of the stablecoin. -/
def callCoin {α : Type} (x : Tx CoinError DecentralisedStableCoin α) : EngineTx α :=
  Tx.call World.coin (fun c w => w.setCoin c) .coin x

/-- The modifier `checkValidAmount`. -/
def checkValidAmount (amount : Nat) : EngineTx Unit :=
  Tx.revertIf (amount ≤ 0) .amountCannotBeZero

/-- The modifier `checkAllowedToken`. -/
def checkAllowedToken (collateralAddress : Address) : EngineTx Unit :=
  Tx.view fun w =>
    Result.revertIf (w.engine.priceFeeds collateralAddress = 0) (.tokenNotAllowed collateralAddress)

def guarded {α : Type} (body : EngineTx α) : EngineTx α :=
  nonReentrant (·.engine.entered) (fun b w => w.setEntered b) .reentrantCall body

/-! ## Internal functions -/

def _burnDSC (c : Ctx) (amountToBurn : Nat) (forWho dscFrom : Address) : EngineTx Unit := do
  Tx.tryModify fun w => do
    let left ← subU (w.engine.dscMinted forWho) amountToBurn
    pure (w.setMinted forWho left)
  let w ← Tx.get
  let success ← callToken w.engine.dsc (ERC20.transferFrom c.this dscFrom c.this amountToBurn)
  Tx.revertIf (success = false) .burnFailed
  callCoin (DecentralisedStableCoin.burn c.this amountToBurn)

def _reedemCollateral (c : Ctx) (src dst collateralAddress : Address) (amount : Nat) :
    EngineTx Unit := do
  Tx.tryModify fun w => do
    let left ← subU (w.engine.collateralToUser src collateralAddress) amount
    pure (w.setCollateral src collateralAddress left)
  let success ← callToken collateralAddress (ERC20.transfer c.this dst amount)
  Tx.revertIf (success = false) .transferFailed

/-! ## Public functions -/

def depositCollateral (c : Ctx) (collateralAddress : Address) (amount : Nat) : EngineTx Unit := do
  checkValidAmount amount
  checkAllowedToken collateralAddress
  guarded do
    Tx.tryModify fun w => do
      let total ← addU (w.engine.collateralToUser c.sender collateralAddress) amount
      pure (w.setCollateral c.sender collateralAddress total)
    let success ← callToken collateralAddress (ERC20.transferFrom c.this c.sender c.this amount)
    Tx.revertIf (success = false) .transferFailed

def mintDSC (c : Ctx) (amount : Nat) : EngineTx Unit := do
  checkValidAmount amount
  Tx.tryModify fun w => do
    let total ← addU (w.engine.dscMinted c.sender) amount
    pure (w.setMinted c.sender total)
  Tx.view fun w => _checkHealthFactorAndRevert c.env w.engine c.sender
  let success ← callCoin (DecentralisedStableCoin.mint c.this c.sender amount)
  Tx.revertIf (success = false) .mintFailed

def depositCollateralAndMintDSC (c : Ctx) (collateralAddress : Address)
    (amount amountToBeMinted : Nat) : EngineTx Unit := do
  checkValidAmount amount
  checkAllowedToken collateralAddress
  depositCollateral c collateralAddress amount
  mintDSC c amountToBeMinted

def burnDSC (c : Ctx) (amount : Nat) : EngineTx Unit := do
  checkValidAmount amount
  guarded (_burnDSC c amount c.sender c.sender)

def reedemCollateral (c : Ctx) (collateralAddress : Address) (amount : Nat) : EngineTx Unit := do
  checkValidAmount amount
  guarded do
    _reedemCollateral c c.sender c.sender collateralAddress amount
    Tx.view fun w => _checkHealthFactorAndRevert c.env w.engine c.sender

def reedemCollateralAndBurnDSC (c : Ctx) (collateralAddress : Address)
    (amount amountToBeBurned : Nat) : EngineTx Unit := do
  checkValidAmount amount
  burnDSC c amountToBeBurned
  reedemCollateral c collateralAddress amount
  Tx.view fun w => _checkHealthFactorAndRevert c.env w.engine c.sender

def liquidate (c : Ctx) (badUser collateralAddress : Address) (debtToCover : Nat) :
    EngineTx Unit := do
  checkValidAmount debtToCover
  let w ← Tx.get
  Tx.revertIf (debtToCover > w.engine.dscMinted badUser) .debtIsLow
  let startingHealthfactor ← Tx.view fun w => getHealthFactor c.env w.engine badUser
  Tx.revertIf (startingHealthfactor > MIN_HEALTH_FACTOR) .notLiquidatable
  let collateralNeededToSettleDebt ← Tx.view fun w =>
    _convertDscToCollateral c.env w.engine collateralAddress debtToCover
  let scaledBonus ← Tx.view fun _ => mulU collateralNeededToSettleDebt LIQUIDATION_BONUS
  let liquidatorsBonus ← Tx.view fun _ => divU scaledBonus LIQUIDATION_PRECISION
  let totalAmountToReedem ← Tx.view fun _ => addU collateralNeededToSettleDebt liquidatorsBonus
  _burnDSC c debtToCover badUser c.sender
  _reedemCollateral c badUser c.sender collateralAddress totalAmountToReedem
  let endingHealthfactor ← Tx.view fun w => getHealthFactor c.env w.engine badUser
  Tx.revertIf (startingHealthfactor ≥ endingHealthfactor) .healthFactorNotChanged

end AdvFoundry.Dsc
