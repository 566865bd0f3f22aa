import AdvFoundry.Chainlink.Feed
import AdvFoundry.Evm.Machine

/-!
# FundMe

`FundMe/src/FundMe.sol` and the library it converts ETH with,
`FundMe/src/PriceConverter.sol`. `withdraw` hands over control to the owner it
pays, so it is a `Proc`; the ETH has left the contract by then.
-/

namespace AdvFoundry.Funding

open Function

/-- Storage of `FundMe`: `s_priceFeed`, `addressToAmountFunded`, `funders` and
`i_owner`. -/
structure FundMe where
  priceFeed : Address
  addressToAmountFunded : Address → Nat
  funders : List Address
  owner : Address

/-- The contract and its ETH. -/
structure World where
  fundMe : FundMe
  balance : Nat

/-- `NotOwner()`, and the texts of `require`. -/
inductive FundError
  | notOwner
  | reason (text : String)
  deriving DecidableEq

/-- A payment of ETH to an account. -/
structure Payment where
  dst : Address
  amount : Nat

abbrev FundTx := Tx FundError World
abbrev FundProc := Proc FundError World Payment Unit

def MINIMUM_USD : Nat := 5 * 10 ^ 18

/-- `FundMe`'s constructor. -/
def constructor (sender priceFeed : Address) : FundMe where
  priceFeed := priceFeed
  addressToAmountFunded := fun _ => 0
  funders := []
  owner := sender

/-! ## `PriceConverter` -/

section PriceConverter

variable {ε : Type}

/-- `x * k` on `int256`, checked. -/
def mulI (x : Int256) (k : Int) : Result ε Int256 :=
  if h : -2 ^ 255 ≤ x.val * k ∧ x.val * k < 2 ^ 255 then .ok ⟨x.val * k, h.1, h.2⟩
  else .error (.panic .arithmetic)

/-- `getPrice`: the product is signed and checked, the conversion after it wraps
a negative price. -/
def getPrice (env : Env) (priceFeed : Address) : Result ε Nat := do
  let round ← Result.ofOption (env.latestRoundData priceFeed)
  let price ← mulI round.answer 10000000000
  pure price.toUint256

def getConversionRate (env : Env) (ethAmount : Nat) (priceFeed : Address) : Result ε Nat := do
  let ethPrice ← getPrice env priceFeed
  let scaled ← mulU ethPrice ethAmount
  divU scaled 1000000000000000000

end PriceConverter

/-! ## The functions of `FundMe` -/

namespace World

def setFundMe (w : World) (f : FundMe) : World := { w with fundMe := f }

def setBalance (w : World) (balance : Nat) : World := { w with balance := balance }

end World

/-- `fund`: the ETH is there before the body runs. -/
def fund (env : Env) (sender : Address) (value : Nat) : FundTx Unit := do
  Tx.modify fun w => w.setBalance (w.balance + value)
  let rate ← Tx.view fun w => getConversionRate env value w.fundMe.priceFeed
  Tx.revertIf (¬ rate ≥ MINIMUM_USD) (.reason "You need to spend more ETH!")
  Tx.tryModify fun w => do
    let total ← addU (w.fundMe.addressToAmountFunded sender) value
    pure (w.setFundMe { w.fundMe with
      addressToAmountFunded := update w.fundMe.addressToAmountFunded sender total })
  Tx.modify fun w => w.setFundMe { w.fundMe with funders := w.fundMe.funders ++ [sender] }

def fallback (env : Env) (sender : Address) (value : Nat) : FundTx Unit := fund env sender value

def receive (env : Env) (sender : Address) (value : Nat) : FundTx Unit := fund env sender value

/-- The modifier `onlyOwner`. -/
def onlyOwner (sender : Address) : FundTx Unit := do
  let w ← Tx.get
  Tx.revertIf (sender ≠ w.fundMe.owner) .notOwner

/-- The loop of `withdraw`: every entry of `funders`, duplicates included, sets
its amount to zero. -/
def resetFunders (funders : List Address) (amounts : Address → Nat) : Address → Nat :=
  funders.foldl (fun amounts funder => update amounts funder 0) amounts

/-- `dst.call{value: address(this).balance}("")`: the ETH leaves before the code
of `dst` runs, and comes back when that code reverts. -/
def payAll (dst : Address) : FundProc Bool := do
  let w ← .tx Tx.get
  .tx (Tx.modify fun w => w.setBalance 0)
  match ← Proc.call ⟨dst, w.balance⟩ with
  | some () => pure true
  | none =>
    .tx (Tx.modify fun w' => w'.setBalance w.balance)
    pure false

def withdraw (sender : Address) : FundProc Unit := do
  .tx (onlyOwner sender)
  .tx <| Tx.modify fun w => w.setFundMe { w.fundMe with
    addressToAmountFunded := resetFunders w.fundMe.funders w.fundMe.addressToAmountFunded }
  .tx (Tx.modify fun w => w.setFundMe { w.fundMe with funders := [] })
  let callSuccess ← payAll sender
  .tx (Tx.revertIf (¬ callSuccess) (.reason "Call failed"))

/-! ## The system -/

/-- Everything that can happen: the functions of the contract, plain ETH with and
without data, and ETH that is forced in. -/
inductive Call
  | fund (value : Nat)
  | fallback (value : Nat)
  | receive (value : Nat)
  | withdraw
  | force (amount : Nat)

/-- Who sends which call in which block. The contract calls nobody but the owner,
who deployed it, so it is not the sender. -/
structure Msg (this : Address) where
  sender : Address
  sender_ne : sender ≠ this
  env : Env
  call : Call

def Msg.exec {this : Address} (m : Msg this) : FundProc Unit :=
  match m.call with
  | .fund value => .tx (Funding.fund m.env m.sender value)
  | .fallback value => .tx (Funding.fallback m.env m.sender value)
  | .receive value => .tx (Funding.receive m.env m.sender value)
  | .withdraw => Funding.withdraw m.sender
  | .force amount => .tx (Tx.modify fun w => w.setBalance (w.balance + amount))

abbrev FundMachine := Machine FundError World Payment Unit

def Step (this : Address) : FundMachine → Event (Msg this) Unit → FundMachine → Prop :=
  Machine.Step Msg.exec

/-- A world in which the contract was just constructed. What ETH its address had
before counts as forced in. -/
def Deployed (w : World) : Prop :=
  ∃ sender priceFeed, w.fundMe = constructor sender priceFeed

end AdvFoundry.Funding
