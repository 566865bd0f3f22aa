import AdvFoundry.Chainlink.Feed
import AdvFoundry.Drs.Coin
import AdvFoundry.Evm.Machine

/-!
# StableCoinEngine

`testing/src/StableCoinEngine.sol`, function by function. It is `DSCEngine` over
again with these differences: there is no allow-list, so a deposit calls
whatever token address the caller names; prices are read without a staleness
check; the guard is on the internal functions; the health factor without debt is
`type(uint96).max`.

A token is either a standard ERC20, whose storage is in the world and which runs
without calling anyone, or a contract of unknown code. A call of the second kind
hands over control, so the functions below are `Proc`s.
-/

namespace AdvFoundry.Drs

open Function

/-- What one call reads from outside: `address(this)`, `msg.sender`, and which
accounts are standard tokens. The engine makes no external call to itself, so it
is never its own caller. -/
structure Ctx where
  this : Address
  sender : Address
  standard : Address → Bool
  sender_ne : sender ≠ this

/-- The errors a call of the engine can give: its own, those of the coin and of
standard tokens, and `foreign` for whatever a token of unknown code reverts
with. -/
inductive EngineError
  | acceptedAddressLengthZero
  | amountCannotBeZero
  | transferFailed
  | mintFailed
  | healthFactorTooLow
  | userCannotGetLiquidated
  | debtTooLow
  | reentrantCall
  | coin (e : CoinError)
  | token (e : ERC20Error)
  | foreign
  deriving DecidableEq

/-- Storage of `StableCoinEngine`: `s_tokenAddressToPriceFeed`,
`s_userToDRSminted`, `s_CollateralToUser`, `s_AcceptedTokens`, `i_DRS` and the
guard. -/
structure StableCoinEngine where
  tokenAddressToPriceFeed : Address → Address
  userToDRSminted : Address → Nat
  collateralToUser : Address → Address → Nat
  acceptedTokens : List Address
  drs : Address
  entered : Bool

/-- The engine, the contracts it calls and the block. `sent` counts, per token,
what was sent to the engine past its functions; no contract reads it. -/
structure World where
  engine : StableCoinEngine
  tokens : Address → ERC20
  drsOwner : Address
  env : Env
  sent : Address → Nat

/-- The calls the engine makes to a collateral token. -/
inductive TokenQuery
  | transfer (token dst : Address) (amount : Nat)
  | transferFrom (token src dst : Address) (amount : Nat)

abbrev EngineTx := Tx EngineError World
abbrev EngineProc := Proc EngineError World TokenQuery Bool

def REMAINING_PRECISION : Nat := 10 ^ 10
def PRECISION : Nat := 10 ^ 18
def LIQUIDATION_THRESHOLD : Nat := 50
def LIQUIDATION_PRECISION : Nat := 100
def MINIMUM_HEALTH_FACTOR : Nat := 10 ^ 18
def BONUS_FOR_LIQUIDATION : Nat := 10

/-- `StableCoinEngine`'s constructor. The feed of the `i`-th token is read at
index `i`, so too few feeds panic and further feeds are ignored. -/
def constructor (acceptedTokenAddress tokenPriceFeeds : List Address) (drs : Address) :
    Result EngineError StableCoinEngine := do
  Result.revertIf (acceptedTokenAddress.length = 0) .acceptedAddressLengthZero
  if acceptedTokenAddress.length ≤ tokenPriceFeeds.length then
    pure
      { tokenAddressToPriceFeed :=
          (acceptedTokenAddress.zip tokenPriceFeeds).foldl (fun m p => update m p.1 p.2) fun _ => 0
        userToDRSminted := fun _ => 0
        collateralToUser := fun _ _ => 0
        acceptedTokens := acceptedTokenAddress
        drs := drs
        entered := false }
  else .error (.panic .indexOutOfBounds)

/-! ## View functions -/

section Views

variable (env : Env) (e : StableCoinEngine)

/-- `uint256(price)` of the feed of a token, as `latestRoundData` answers it. -/
def latestPrice (token : Address) : Result EngineError Nat := do
  let round ← Result.ofOption (env.latestRoundData (e.tokenAddressToPriceFeed token))
  pure round.answer.toUint256

def _convertDRStoCollateral (collateralAddress : Address) (amount : Nat) :
    Result EngineError Nat := do
  let price ← latestPrice env e collateralAddress
  let scaled ← mulU amount PRECISION
  let unit ← mulU price REMAINING_PRECISION
  divU scaled unit

def _getCollateralInUSD (user : Address) : Result EngineError Nat :=
  e.acceptedTokens.foldlM (fun totalCollateralInRs token => do
    let price ← latestPrice env e token
    let unit ← mulU price REMAINING_PRECISION
    let scaled ← mulU (e.collateralToUser user token) unit
    let value ← divU scaled PRECISION
    addU totalCollateralInRs value) 0

def _getAccountInformation (user : Address) : Result EngineError (Nat × Nat) := do
  let drsMinted := e.userToDRSminted user
  let totalCollateralInRs ← _getCollateralInUSD env e user
  pure (drsMinted, totalCollateralInRs)

/-- A user without debt has the health factor `type(uint96).max`. -/
def _getHealthFactor (totalDSCMintedByUser totalCollateralInRupees : Nat) :
    Result EngineError Nat :=
  if totalDSCMintedByUser = 0 then pure (2 ^ 96 - 1)
  else do
    let scaled ← mulU totalCollateralInRupees LIQUIDATION_THRESHOLD
    let collateralAdjusted ← divU scaled LIQUIDATION_PRECISION
    let adjusted ← mulU collateralAdjusted PRECISION
    divU adjusted totalDSCMintedByUser

def getHealthFactor (user : Address) : Result EngineError Nat := do
  let (totalMinted, totalCollateralInRupees) ← _getAccountInformation env e user
  _getHealthFactor totalMinted totalCollateralInRupees

def _checkHealthFactorOrRevert (user : Address) : Result EngineError Unit := do
  let (totalMinted, totalCollateralInRupees) ← _getAccountInformation env e user
  let healthFactor ← _getHealthFactor totalMinted totalCollateralInRupees
  Result.revertIf (healthFactor < MINIMUM_HEALTH_FACTOR) .healthFactorTooLow

end Views

/-! ## Storage writes and calls -/

namespace World

variable (w : World)

/-- `s_userToDRSminted[user] = amount`. -/
def setMinted (user : Address) (amount : Nat) : World :=
  { w with engine :=
      { w.engine with userToDRSminted := update w.engine.userToDRSminted user amount } }

/-- `s_CollateralToUser[user][token] = amount`. -/
def setCollateral (user token : Address) (amount : Nat) : World :=
  { w with engine := { w.engine with
      collateralToUser := update w.engine.collateralToUser user
        (update (w.engine.collateralToUser user) token amount) } }

/-- The storage of the contract at `token` after a call into it. -/
def setToken (token : Address) (t : ERC20) : World :=
  { w with tokens := update w.tokens token t }

def setEntered (b : Bool) : World :=
  { w with engine := { w.engine with entered := b } }

/-- The storage of the stablecoin contract. -/
def coin : StableCoin := ⟨w.tokens w.engine.drs, w.drsOwner⟩

def setCoin (c : StableCoin) : World :=
  { w.setToken w.engine.drs c.erc20 with drsOwner := c.owner }

/-- The token at this address runs OpenZeppelin's code; the stablecoin does. -/
def Standard (standard : Address → Bool) (token : Address) : Prop :=
  token = w.engine.drs ∨ standard token = true

instance (standard : Address → Bool) (token : Address) : Decidable (w.Standard standard token) :=
  inferInstanceAs (Decidable (_ ∨ _))

end World

/-- A call of a function of the standard token at `token`. -/
def callToken {α : Type} (token : Address) (x : Tx ERC20Error ERC20 α) : EngineTx α :=
  Tx.call (fun w => w.tokens token) (fun t w => w.setToken token t) .token x

/-- A call of a function of the stablecoin. -/
def callCoin {α : Type} (x : Tx CoinError StableCoin α) : EngineTx α :=
  Tx.call World.coin (fun c w => w.setCoin c) .coin x

def TokenQuery.token : TokenQuery → Address
  | transfer t _ _ => t
  | transferFrom t _ _ _ => t

/-- The query, on a standard token. -/
def TokenQuery.exec (this : Address) : TokenQuery → Tx ERC20Error ERC20 Bool
  | transfer _ dst amount => ERC20.transfer this dst amount
  | transferFrom _ src dst amount => ERC20.transferFrom this src dst amount

/-- A call of a collateral token. A token of unknown code answers when and what
it likes; its revert, or an answer that is no `bool`, reverts the caller. -/
def callCollateral (c : Ctx) (query : TokenQuery) : EngineProc Bool := do
  let w ← .tx Tx.get
  if w.Standard c.standard query.token then
    .tx (callToken query.token (query.exec c.this))
  else
    match ← Proc.call query with
    | some success => pure success
    | none => .tx (Tx.view fun _ => .error (.error .foreign))

/-- The modifier `validAmount`. -/
def validAmount (amount : Nat) : EngineProc Unit :=
  .tx (Tx.revertIf (amount ≤ 0) .amountCannotBeZero)

/-- The modifier `nonReentrant`, around a body that may hand over control. -/
def guarded {α : Type} (body : EngineProc α) : EngineProc α := do
  .tx do
    let w ← Tx.get
    Tx.revertIf (w.engine.entered = true) .reentrantCall
    Tx.modify fun w => w.setEntered true
  let a ← body
  .tx (Tx.modify fun w => w.setEntered false)
  pure a

/-! ## Internal functions -/

def _burn (c : Ctx) (burnFrom badUser : Address) (amount : Nat) : EngineProc Unit :=
  .tx do
    Tx.tryModify fun w => do
      let left ← subU (w.engine.userToDRSminted badUser) amount
      pure (w.setMinted badUser left)
    let w ← Tx.get
    let success ← callToken w.engine.drs (ERC20.transferFrom c.this burnFrom c.this amount)
    Tx.revertIf (success = false) .transferFailed
    callCoin (StableCoin.burn c.this amount)

def _reedemCollateral (c : Ctx) (src dst collateralAddress : Address) (amount : Nat) :
    EngineProc Unit :=
  guarded do
    .tx <| Tx.tryModify fun w => do
      let left ← subU (w.engine.collateralToUser src collateralAddress) amount
      pure (w.setCollateral src collateralAddress left)
    let success ← callCollateral c (.transfer collateralAddress dst amount)
    .tx (Tx.revertIf (success = false) .transferFailed)

def _mint (c : Ctx) (amount : Nat) : EngineProc Unit :=
  guarded <| .tx do
    Tx.tryModify fun w => do
      let total ← addU (w.engine.userToDRSminted c.sender) amount
      pure (w.setMinted c.sender total)
    let success ← callCoin (StableCoin.mint c.this c.sender amount)
    Tx.revertIf (success = false) .mintFailed

def _depositCollateral (c : Ctx) (collateralAddress : Address) (amount : Nat) : EngineProc Unit :=
  guarded do
    .tx <| Tx.tryModify fun w => do
      let total ← addU (w.engine.collateralToUser c.sender collateralAddress) amount
      pure (w.setCollateral c.sender collateralAddress total)
    let success ← callCollateral c (.transferFrom collateralAddress c.sender c.this amount)
    .tx (Tx.revertIf (success = false) .transferFailed)

/-- `_checkHealthFactorOrRevert(msg.sender)`, at the prices of the moment. -/
def checkSender (c : Ctx) : EngineProc Unit :=
  .tx (Tx.view fun w => _checkHealthFactorOrRevert w.env w.engine c.sender)

/-! ## Public functions -/

def depositCollateralAndMintDRS (c : Ctx) (collateralAddress : Address)
    (collateralAmount drsToMint : Nat) : EngineProc Unit := do
  _depositCollateral c collateralAddress collateralAmount
  _mint c drsToMint
  checkSender c

def depositCollateral (c : Ctx) (collateralAddress : Address) (amount : Nat) : EngineProc Unit := do
  validAmount amount
  _depositCollateral c collateralAddress amount

def mintDRS (c : Ctx) (amount : Nat) : EngineProc Unit := do
  validAmount amount
  _mint c amount
  checkSender c

def burnAndReedemCollateral (c : Ctx) (collateralAddress : Address)
    (collateralAmount amountDRStoBurn : Nat) : EngineProc Unit := do
  _burn c c.sender c.sender amountDRStoBurn
  _reedemCollateral c c.sender c.sender collateralAddress collateralAmount
  checkSender c

def reedemCollateral (c : Ctx) (collateralAddress : Address) (amount : Nat) : EngineProc Unit := do
  validAmount amount
  _reedemCollateral c c.sender c.sender collateralAddress amount
  checkSender c

def burnDRS (c : Ctx) (amount : Nat) : EngineProc Unit := do
  validAmount amount
  _burn c c.sender c.sender amount

/-- The checks and amounts `liquidate` computes before it moves anything: the
health factor it starts from and the collateral to pay out. -/
def liquidationTerms (badUser collateralAddress : Address) (debtToCoverDRS : Nat) :
    EngineTx (Nat × Nat) := do
  let w ← Tx.get
  Tx.revertIf (debtToCoverDRS > w.engine.userToDRSminted badUser) .debtTooLow
  let startingHealthFactor ← Tx.view fun w => getHealthFactor w.env w.engine badUser
  Tx.revertIf (startingHealthFactor > MINIMUM_HEALTH_FACTOR) .userCannotGetLiquidated
  let collateralNeededToSettleDebt ← Tx.view fun w =>
    _convertDRStoCollateral w.env w.engine collateralAddress debtToCoverDRS
  let scaledBonus ← Tx.view fun _ => mulU collateralNeededToSettleDebt BONUS_FOR_LIQUIDATION
  let liquiadtorBonus ← Tx.view fun _ => divU scaledBonus LIQUIDATION_PRECISION
  let totalAmountToReedem ← Tx.view fun _ => addU liquiadtorBonus collateralNeededToSettleDebt
  pure (startingHealthFactor, totalAmountToReedem)

def liquidate (c : Ctx) (badUser collateralAddress : Address) (debtToCoverDRS : Nat) :
    EngineProc Unit := do
  validAmount debtToCoverDRS
  let (startingHealthFactor, totalAmountToReedem) ←
    .tx (liquidationTerms badUser collateralAddress debtToCoverDRS)
  _burn c c.sender badUser debtToCoverDRS
  _reedemCollateral c badUser c.sender collateralAddress totalAmountToReedem
  let endingHealthFactor ← .tx (Tx.view fun w => getHealthFactor w.env w.engine badUser)
  .tx (Tx.revertIf (startingHealthFactor ≥ endingHealthFactor) .userCannotGetLiquidated)

end AdvFoundry.Drs
