import AdvFoundry.OpenZeppelin.Access
import AdvFoundry.OpenZeppelin.ERC20

/-!
# RebaseToken

`cross-chain-rebase-tkn/src/RebaseToken.sol`, function by function: an ERC20
whose `balanceOf` adds linear interest to the stored principal, at a rate kept
per account. The interest of an account is settled, that is minted into its
principal, before the account is touched.

Of `AccessControl` only the role `MINT_AND_BURN` matters. Nobody has the role's
admin role, so the only ways to change it are `grantMintAndBurnRole` and
`renounceRole`.
-/

namespace AdvFoundry.Rebase

open Function

/-- Storage of `RebaseToken`: its bases' (the principal balances of `ERC20`, the
owner, the members of `MINT_AND_BURN`), `s_intrestRate`, `s_IntrestRateToUser`
and `s_LastUpdatedTimeStampToUser`. -/
structure RebaseToken where
  erc20 : ERC20
  owner : Address
  minters : Address → Bool
  intrestRate : Nat
  intrestRateToUser : Address → Nat
  lastUpdatedTimeStampToUser : Address → Nat

/-- The errors a call of the token can give: its own, and its bases'. -/
inductive RebaseError
  | newIntrestRateCannotIncrease (intrestRate : Nat)
  | invalidAmountSent
  | accessControlUnauthorizedAccount (account : Address)
  | accessControlBadConfirmation
  | ownable (e : OwnableError)
  | erc20 (e : ERC20Error)
  deriving DecidableEq

def PRECISION_FACTOR : Nat := 10 ^ 18

/-- `RebaseToken`'s constructor, called by `sender`. -/
def constructor (sender : Address) : Result RebaseError RebaseToken := do
  Result.revertIf (sender = 0) (.ownable (.invalidOwner 0))
  pure
    { erc20 := ERC20.empty
      owner := sender
      minters := fun _ => false
      intrestRate := 5 * 10 ^ 10
      intrestRateToUser := fun _ => 0
      lastUpdatedTimeStampToUser := fun _ => 0 }

/-- What one call reads from outside: `msg.sender` and `block.timestamp`. -/
structure Ctx where
  sender : Address
  timestamp : Nat

namespace RebaseToken

abbrev RebaseTx := Tx RebaseError RebaseToken

/-- A function inherited from `ERC20`. -/
def super {α : Type} (x : Tx ERC20Error ERC20 α) : RebaseTx α :=
  Tx.call (·.erc20) (fun t s => { s with erc20 := t }) .erc20 x

/-- A function inherited from `Ownable`. -/
def superOwnable {α : Type} (x : Tx OwnableError Address α) : RebaseTx α :=
  Tx.call (·.owner) (fun o s => { s with owner := o }) .ownable x

def onlyOwner (sender : Address) : RebaseTx Unit :=
  superOwnable (Tx.view fun owner => Ownable.onlyOwner sender owner)

/-- The modifier `onlyRole(MINT_AND_BURN)`. -/
def onlyMinter (sender : Address) : RebaseTx Unit :=
  Tx.view fun s =>
    Result.revertIf (s.minters sender = false) (.accessControlUnauthorizedAccount sender)

def amountValid (amount : Nat) : RebaseTx Unit :=
  Tx.revertIf (amount ≤ 0) .invalidAmountSent

/-! ## Balances with interest -/

def _growthInPrincipalSinceLasteUpdatedTimeStamp (timestamp : Nat) (user : Address)
    (s : RebaseToken) : Result RebaseError Nat := do
  let timeElapsed ← subU timestamp (s.lastUpdatedTimeStampToUser user)
  if timeElapsed = 0 ∨ s.intrestRateToUser user = 0 then
    pure PRECISION_FACTOR
  else do
    let growth ← mulU timeElapsed (s.intrestRateToUser user)
    addU PRECISION_FACTOR growth

def balanceOf (timestamp : Nat) (user : Address) (s : RebaseToken) : Result RebaseError Nat := do
  let growthFactor ← _growthInPrincipalSinceLasteUpdatedTimeStamp timestamp user s
  let scaled ← mulU (s.erc20.balances user) growthFactor
  divU scaled PRECISION_FACTOR

def _settlePreviousIntrestAccrued (timestamp : Nat) (user : Address) : RebaseTx Unit := do
  let s ← Tx.get
  let previousBalance := s.erc20.balances user
  let currentBalance ← Tx.view (balanceOf timestamp user)
  let amountToBeMinted ← Tx.view fun _ => subU currentBalance previousBalance
  Tx.modify fun s => { s with
    lastUpdatedTimeStampToUser := update s.lastUpdatedTimeStampToUser user timestamp }
  super (ERC20._mint user amountToBeMinted)

/-- `s_IntrestRateToUser[user] = rate`. -/
def setRate (user : Address) (rate : Nat) (s : RebaseToken) : RebaseToken :=
  { s with intrestRateToUser := update s.intrestRateToUser user rate }

/-- `value == type(uint256).max` stands for the whole balance of `payer`. -/
def resolve (timestamp : Nat) (payer : Address) (value : Nat) : RebaseTx Nat :=
  if value = uintMax then Tx.view (balanceOf timestamp payer) else pure value

/-! ## Public functions -/

def mint (c : Ctx) (dst : Address) (amount : Nat) : RebaseTx Unit := do
  onlyMinter c.sender
  amountValid amount
  _settlePreviousIntrestAccrued c.timestamp dst
  Tx.modify fun s => s.setRate dst s.intrestRate
  super (ERC20._mint dst amount)

/-- `burn` resolves the whole balance before it settles, the transfers after. -/
def burn (c : Ctx) (src : Address) (amount : Nat) : RebaseTx Unit := do
  onlyMinter c.sender
  amountValid amount
  let amount ← resolve c.timestamp src amount
  _settlePreviousIntrestAccrued c.timestamp src
  super (ERC20._burn src amount)

def grantMintAndBurnRole (c : Ctx) (user : Address) : RebaseTx Unit := do
  onlyOwner c.sender
  Tx.modify fun s => { s with minters := update s.minters user true }

def setIntrestRate (c : Ctx) (newIntrestRate : Nat) : RebaseTx Unit := do
  onlyOwner c.sender
  let s ← Tx.get
  Tx.revertIf (newIntrestRate > s.intrestRate) (.newIntrestRateCannotIncrease newIntrestRate)
  Tx.modify fun s => { s with intrestRate := newIntrestRate }

/-- The part `transfer` and `transferFrom` share: both parties are settled, a
receiver without a rate inherits the payer's, and the value is resolved. -/
def settleParties (c : Ctx) (src dst : Address) (value : Nat) : RebaseTx Nat := do
  _settlePreviousIntrestAccrued c.timestamp src
  _settlePreviousIntrestAccrued c.timestamp dst
  Tx.modify fun s =>
    if s.intrestRateToUser dst = 0 then s.setRate dst (s.intrestRateToUser src) else s
  resolve c.timestamp src value

def transfer (c : Ctx) (dst : Address) (value : Nat) : RebaseTx Bool := do
  let value ← settleParties c c.sender dst value
  super (ERC20.transfer c.sender dst value)

def transferFrom (c : Ctx) (src dst : Address) (value : Nat) : RebaseTx Bool := do
  let value ← settleParties c src dst value
  super (ERC20.transferFrom c.sender src dst value)

def approve (c : Ctx) (spender : Address) (value : Nat) : RebaseTx Bool :=
  super (ERC20.approve c.sender spender value)

/-- `AccessControl.renounceRole`, for `MINT_AND_BURN`. -/
def renounceRole (c : Ctx) (callerConfirmation : Address) : RebaseTx Unit := do
  Tx.revertIf (callerConfirmation ≠ c.sender) .accessControlBadConfirmation
  Tx.modify fun s => { s with minters := update s.minters c.sender false }

end RebaseToken

/-- The public functions of `RebaseToken` that write storage. -/
inductive RebaseOp
  | mint (dst : Address) (amount : Nat)
  | burn (src : Address) (amount : Nat)
  | transfer (dst : Address) (value : Nat)
  | transferFrom (src dst : Address) (value : Nat)
  | approve (spender : Address) (value : Nat)
  | setIntrestRate (newIntrestRate : Nat)
  | grantMintAndBurnRole (user : Address)
  | renounceRole (callerConfirmation : Address)
  | transferOwnership (newOwner : Address)
  | renounceOwnership

def RebaseOp.exec (c : Ctx) : RebaseOp → RebaseToken.RebaseTx Unit
  | mint d a => RebaseToken.mint c d a
  | burn s a => RebaseToken.burn c s a
  | transfer d v => do let _ ← RebaseToken.transfer c d v
  | transferFrom s d v => do let _ ← RebaseToken.transferFrom c s d v
  | approve p v => do let _ ← RebaseToken.approve c p v
  | setIntrestRate r => RebaseToken.setIntrestRate c r
  | grantMintAndBurnRole u => RebaseToken.grantMintAndBurnRole c u
  | renounceRole u => RebaseToken.renounceRole c u
  | transferOwnership o => RebaseToken.superOwnable (Ownable.transferOwnership c.sender o)
  | renounceOwnership => RebaseToken.superOwnable (Ownable.renounceOwnership c.sender)

end AdvFoundry.Rebase
