import AdvFoundry.Evm.Ledger
import AdvFoundry.Evm.Machine
import AdvFoundry.OpenZeppelin.EnumerableSet

/-!
# Chainlink's VRF subscriptions

The storage of `VRFCoordinatorV2_5`, and the functions it inherits from
`SubscriptionAPI` and `ConfirmedOwner` (vendored under `FundMe/lib`).

The lock of the coordinator is not a guard around each function:
`nonReentrant` only looks at it, and it is taken for the callback of a delivery
and for the last part of a migration. So the payments in between hand over
control with the lock free.

LINK is the token at the address the owner set, which like all tokens here is a
standard one. Ids are hashes; `Keccak` lists the hashes that the coordinator
makes, each as a function of what is hashed.
-/

namespace AdvFoundry.Vrf

open Function

/-! ## Storage -/

structure Subscription where
  balance : Nat
  nativeBalance : Nat
  reqCount : Nat

structure SubscriptionConfig where
  owner : Address
  requestedOwner : Address
  consumers : List Address

structure ConsumerConfig where
  active : Bool
  nonce : Nat
  pendingReqCount : Nat

/-- What the storage holds where nothing was written, and after a `delete`. -/
def Subscription.zero : Subscription := ⟨0, 0, 0⟩

def SubscriptionConfig.zero : SubscriptionConfig := ⟨0, 0, []⟩

def ConsumerConfig.zero : ConsumerConfig := ⟨false, 0, 0⟩

structure Config where
  minimumRequestConfirmations : Nat
  maxGasLimit : Nat
  reentrancyLock : Bool
  stalenessSeconds : Nat
  gasAfterPaymentCalculation : Nat
  fulfillmentFlatFeeNativePPM : Nat
  fulfillmentFlatFeeLinkDiscountPPM : Nat
  nativePremiumPercentage : Nat
  linkPremiumPercentage : Nat

structure ProvingKey where
  exists_ : Bool
  maxGas : Nat

/-- The storage of `VRFCoordinatorV2_5` and of the contracts it inherits from. -/
structure Coordinator where
  owner : Address
  pendingOwner : Address
  link : Address
  linkNativeFeed : Address
  consumers : Address → Nat → ConsumerConfig
  subscriptionConfigs : Nat → SubscriptionConfig
  subscriptions : Nat → Subscription
  currentSubNonce : Nat
  subIds : EnumerableSet Nat
  totalBalance : Nat
  totalNativeBalance : Nat
  withdrawableTokens : Nat
  withdrawableNative : Nat
  config : Config
  fallbackWeiPerUnitLink : Int
  provingKeys : Nat → ProvingKey
  provingKeyHashes : List Nat
  requestCommitments : Nat → Nat
  migrationTargets : List Address

/-- The coordinator, its ETH, and for each token who has how much of it. -/
structure World where
  coordinator : Coordinator
  balance : Nat
  tokens : Address → Address → Nat

/-- `VRFTypes.RequestCommitmentV2Plus`. -/
structure RequestCommitment where
  blockNum : Nat
  subId : Nat
  callbackGasLimit : Nat
  numWords : Nat
  sender : Address
  extraArgs : List UInt8
  deriving DecidableEq

/-- The hashes `keccak256(abi.encode(..))` and `keccak256(abi.encodePacked(..))`
that the coordinator makes. -/
structure Keccak where
  subId : (sender : Address) → (blockhash : Nat) → (this : Address) → (nonce : Nat) → Nat
  keyHash : Nat × Nat → Nat
  preSeed : (keyHash : Nat) → (sender : Address) → (subId nonce : Nat) → Nat
  requestId : (keyHash preSeed : Nat) → Nat
  commitment : (requestId : Nat) → RequestCommitment → Nat
  randomWord : (randomness i : Nat) → Nat

inductive CoordinatorError
  | tooManyConsumers
  | insufficientBalance
  | invalidConsumer (subId : Nat) (consumer : Address)
  | invalidSubscription
  | onlyCallableFromLink
  | invalidCalldata
  | mustBeSubOwner (owner : Address)
  | pendingRequestExists
  | mustBeRequestedOwner (proposedOwner : Address)
  | balanceInvariantViolated (internalBalance externalBalance : Nat)
  | linkAlreadySet
  | failedToSendNative
  | failedToTransferLink
  | indexOutOfRange
  | linkNotSet
  | reentrant
  | invalidRequestConfirmations (have_ min max : Nat)
  | gasLimitTooBig (have_ want : Nat)
  | numWordsTooBig (have_ want : Nat)
  | msgDataTooBig (have_ max : Nat)
  | provingKeyAlreadyRegistered (keyHash : Nat)
  | noSuchProvingKey (keyHash : Nat)
  | invalidLinkWeiPrice (linkWei : Int)
  | linkDiscountTooHigh (flatFeeLinkDiscountPPM flatFeeNativePPM : Nat)
  | invalidPremiumPercentage (premiumPercentage max : Nat)
  | noCorrespondingRequest
  | incorrectCommitment
  | blockhashNotInStore (blockNum : Nat)
  | paymentTooLarge
  | invalidExtraArgsTag
  | gasPriceExceeded (gasPrice maxGas : Nat)
  | coordinatorNotRegistered (coordinatorAddress : Address)
  | coordinatorAlreadyRegistered (coordinatorAddress : Address)
  | require (message : String)
  | callee
  deriving DecidableEq

/-- What a subscription takes along to another coordinator. -/
structure MigrationData where
  subId : Nat
  subOwner : Address
  consumers : List Address
  linkBalance : Nat
  nativeBalance : Nat

/-- The calls that hand over control: a payment of ETH, the callback of a
delivery, and the two calls of a migration. -/
inductive Query
  | send (dst : Address) (amount : Nat)
  | rawFulfillRandomWords (consumer : Address) (requestId : Nat) (randomWords : List Nat)
  | onMigration (newCoordinator : Address) (amount : Nat) (data : MigrationData)
  | setCoordinator (consumer newCoordinator : Address)

abbrev CoordinatorTx := Tx CoordinatorError World
abbrev CoordinatorProc := Proc CoordinatorError World Query Unit

/-- `a + b` on `uintN`, checked. -/
def addUint {ε : Type} (width a b : Nat) : Result ε Nat :=
  if a + b < 2 ^ width then .ok (a + b) else .error (.panic .arithmetic)

@[simp] theorem addUint_ok {ε : Type} {width a b r : Nat} :
    (addUint width a b : Result ε Nat) = .ok r ↔ a + b < 2 ^ width ∧ a + b = r := by
  unfold addUint
  split <;> simp [*]

def MAX_CONSUMERS : Nat := 100

namespace World

def setCoordinator (w : World) (c : Coordinator) : World := { w with coordinator := c }

end World

namespace Coordinator

def setSubscription (c : Coordinator) (subId : Nat) (s : Subscription) : Coordinator :=
  { c with subscriptions := update c.subscriptions subId s }

def setSubscriptionConfig (c : Coordinator) (subId : Nat) (s : SubscriptionConfig) : Coordinator :=
  { c with subscriptionConfigs := update c.subscriptionConfigs subId s }

def setConsumer (c : Coordinator) (consumer : Address) (subId : Nat) (s : ConsumerConfig) :
    Coordinator :=
  { c with consumers := update c.consumers consumer (update (c.consumers consumer) subId s) }

def setLock (c : Coordinator) (locked : Bool) : Coordinator :=
  { c with config := { c.config with reentrancyLock := locked } }

end Coordinator

/-- Writes the storage of the coordinator. -/
def write (f : Coordinator → Coordinator) : CoordinatorTx Unit :=
  Tx.modify fun w => w.setCoordinator (f w.coordinator)

variable {sender : Address} {w w' : World} {u : Unit} {subId amount : Nat}

@[simp] theorem write_ok {f : Coordinator → Coordinator} :
    write f w = .ok (u, w') ↔ w' = w.setCoordinator (f w.coordinator) := by
  simp [write]

/-! ## Modifiers -/

def nonReentrant : CoordinatorTx Unit := do
  let w ← Tx.get
  Tx.revertIf (w.coordinator.config.reentrancyLock = true) .reentrant

def onlyOwner (sender : Address) : CoordinatorTx Unit := do
  let w ← Tx.get
  Tx.revertIf (sender ≠ w.coordinator.owner) (.require "Only callable by owner")

def onlySubOwner (sender : Address) (subId : Nat) : CoordinatorTx Unit := do
  let w ← Tx.get
  let subOwner := (w.coordinator.subscriptionConfigs subId).owner
  Tx.revertIf (subOwner = 0) .invalidSubscription
  Tx.revertIf (sender ≠ subOwner) (.mustBeSubOwner subOwner)

@[simp] theorem nonReentrant_ok :
    nonReentrant w = .ok (u, w') ↔ w.coordinator.config.reentrancyLock = false ∧ w' = w := by
  simp [nonReentrant, and_comm]

@[simp] theorem onlyOwner_ok :
    onlyOwner sender w = .ok (u, w') ↔ sender = w.coordinator.owner ∧ w' = w := by
  simp [onlyOwner, and_comm]

@[simp] theorem onlySubOwner_ok :
    onlySubOwner sender subId w = .ok (u, w') ↔
      (w.coordinator.subscriptionConfigs subId).owner ≠ 0 ∧
        sender = (w.coordinator.subscriptionConfigs subId).owner ∧ w' = w := by
  simp [onlySubOwner, and_assoc, and_left_comm, and_comm]

/-! ## Tokens and ETH -/

/-- The holdings after `src` sent `amount` of `token` to `dst`. -/
def moveTokens (tokens : Address → Address → Nat) (token src dst : Address) (amount : Nat) :
    Address → Address → Nat :=
  update tokens token (credit (debit (tokens token) src amount) dst amount)

/-- `transfer` of a standard token, by `src`. There is no token at address zero. -/
def tokenTransfer (token src dst : Address) (amount : Nat) : CoordinatorTx Bool := do
  let w ← Tx.get
  Tx.revertIf (token = 0 ∨ dst = 0 ∨ w.tokens token src < amount) .callee
  Tx.modify fun w => { w with tokens := moveTokens w.tokens token src dst amount }
  pure true

@[simp] theorem tokenTransfer_ok {token src dst : Address} {sent : Bool} :
    tokenTransfer token src dst amount w = .ok (sent, w') ↔
      token ≠ 0 ∧ dst ≠ 0 ∧ amount ≤ w.tokens token src ∧ sent = true ∧
        w' = { w with tokens := moveTokens w.tokens token src dst amount } := by
  simp only [tokenTransfer, Tx.bind_ok, Tx.get_ok, Tx.revertIf_ok, Tx.modify_ok, Tx.pure_ok,
    not_or, Nat.not_lt]
  constructor
  · rintro ⟨_, w, ⟨rfl, rfl⟩, _, _, ⟨⟨htoken, hdst, hamount⟩, rfl⟩, _, _, rfl, rfl, rfl⟩
    exact ⟨htoken, hdst, hamount, rfl, rfl⟩
  · rintro ⟨htoken, hdst, hamount, rfl, rfl⟩
    exact ⟨w, w, ⟨rfl, rfl⟩, (), w, ⟨⟨htoken, hdst, hamount⟩, rfl⟩, (), _, rfl, rfl, rfl⟩

/-- `dst.call{value: amount}("")`: the ETH leaves before the code of `dst` runs,
and comes back when that code reverts. -/
def sendNative (dst : Address) (amount : Nat) : CoordinatorProc Bool := do
  let w ← .tx Tx.get
  if w.balance < amount then pure false
  else
    .tx (Tx.modify fun w => { w with balance := w.balance - amount })
    match ← Proc.call (.send dst amount) with
    | some () => pure true
    | none =>
      .tx (Tx.modify fun w => { w with balance := w.balance + amount })
      pure false

/-! ## `ConfirmedOwnerWithProposal` -/

def transferOwnership (sender newOwner : Address) : CoordinatorTx Unit := do
  onlyOwner sender
  Tx.revertIf (newOwner = sender) (.require "Cannot transfer to self")
  write fun c => { c with pendingOwner := newOwner }

def acceptOwnership (sender : Address) : CoordinatorTx Unit := do
  let w ← Tx.get
  Tx.revertIf (sender ≠ w.coordinator.pendingOwner) (.require "Must be proposed owner")
  write fun c => { c with owner := sender, pendingOwner := 0 }

/-! ## `SubscriptionAPI` -/

def setLINKAndLINKNativeFeed (sender link linkNativeFeed : Address) : CoordinatorTx Unit := do
  onlyOwner sender
  let w ← Tx.get
  Tx.revertIf (w.coordinator.link ≠ 0) .linkAlreadySet
  write fun c => { c with link := link, linkNativeFeed := linkNativeFeed }

/-- `delete s_consumers[consumers[i]][subId]`, for each consumer. -/
def deleteConsumers (subId : Nat) (list : List Address)
    (consumers : Address → Nat → ConsumerConfig) : Address → Nat → ConsumerConfig :=
  list.foldl (fun m consumer => update m consumer (update (m consumer) subId .zero)) consumers

def deleteSubscription (subId : Nat) : CoordinatorTx (Nat × Nat) := do
  let w ← Tx.get
  let balance := (w.coordinator.subscriptions subId).balance
  let nativeBalance := (w.coordinator.subscriptions subId).nativeBalance
  write fun c => { c with
    consumers := deleteConsumers subId (c.subscriptionConfigs subId).consumers c.consumers
    subscriptionConfigs := update c.subscriptionConfigs subId .zero
    subscriptions := update c.subscriptions subId .zero
    subIds := c.subIds.remove subId }
  let w ← Tx.get
  let totalBalance ← Tx.view fun _ => subU w.coordinator.totalBalance balance
  let totalNativeBalance ← Tx.view fun _ => subU w.coordinator.totalNativeBalance nativeBalance
  write fun c => { c with totalBalance := totalBalance, totalNativeBalance := totalNativeBalance }
  pure (balance, nativeBalance)

/-- Sends LINK, when the token is set and there is any. -/
def payLink (this dst : Address) (amount : Nat) (e : CoordinatorError) : CoordinatorTx Unit := do
  let w ← Tx.get
  if w.coordinator.link ≠ 0 ∧ amount ≠ 0 then
    let sent ← tokenTransfer w.coordinator.link this dst amount
    Tx.revertIf (sent = false) e
  else pure ()

def cancelSubscriptionHelper (this : Address) (subId : Nat) (dst : Address) :
    CoordinatorProc Unit := do
  let (balance, nativeBalance) ← .tx (deleteSubscription subId)
  .tx (payLink this dst balance .insufficientBalance)
  let success ← sendNative dst nativeBalance
  .tx (Tx.revertIf (success = false) .failedToSendNative)

def ownerCancelSubscription (this sender : Address) (subId : Nat) : CoordinatorProc Unit := do
  .tx (onlyOwner sender)
  let w ← .tx Tx.get
  let subOwner := (w.coordinator.subscriptionConfigs subId).owner
  .tx (Tx.revertIf (subOwner = 0) .invalidSubscription)
  cancelSubscriptionHelper this subId subOwner

def recoverFunds (this sender dst : Address) : CoordinatorTx Unit := do
  onlyOwner sender
  let w ← Tx.get
  Tx.revertIf (w.coordinator.link = 0) .linkNotSet
  let externalBalance := w.tokens w.coordinator.link this
  let internalBalance := w.coordinator.totalBalance
  Tx.revertIf (externalBalance < internalBalance)
    (.balanceInvariantViolated internalBalance externalBalance)
  if internalBalance < externalBalance then
    let sent ← tokenTransfer w.coordinator.link this dst (externalBalance - internalBalance)
    Tx.revertIf (sent = false) .failedToTransferLink
  else pure ()

def recoverNativeFunds (sender dst : Address) : CoordinatorProc Unit := do
  .tx (onlyOwner sender)
  let w ← .tx Tx.get
  let externalBalance := w.balance
  let internalBalance := w.coordinator.totalNativeBalance
  .tx (Tx.revertIf (externalBalance < internalBalance)
    (.balanceInvariantViolated internalBalance externalBalance))
  if internalBalance < externalBalance then
    let sent ← sendNative dst (externalBalance - internalBalance)
    .tx (Tx.revertIf (sent = false) .failedToSendNative)
  else pure ()

def withdraw (this sender recipient : Address) : CoordinatorTx Unit := do
  nonReentrant
  onlyOwner sender
  let w ← Tx.get
  Tx.revertIf (w.coordinator.link = 0) .linkNotSet
  let amount := w.coordinator.withdrawableTokens
  Tx.revertIf (amount = 0) .insufficientBalance
  let totalBalance ← Tx.view fun w => subU w.coordinator.totalBalance amount
  write fun c => { c with withdrawableTokens := 0, totalBalance := totalBalance }
  let sent ← tokenTransfer w.coordinator.link this recipient amount
  Tx.revertIf (sent = false) .insufficientBalance

def withdrawNative (sender recipient : Address) : CoordinatorProc Unit := do
  .tx nonReentrant
  .tx (onlyOwner sender)
  let w ← .tx Tx.get
  let amount := w.coordinator.withdrawableNative
  .tx (Tx.revertIf (amount = 0) .insufficientBalance)
  let totalNativeBalance ← .tx (Tx.view fun w => subU w.coordinator.totalNativeBalance amount)
  .tx (write fun c => { c with withdrawableNative := 0, totalNativeBalance := totalNativeBalance })
  let sent ← sendNative recipient amount
  .tx (Tx.revertIf (sent = false) .failedToSendNative)

/-- `abi.decode(data, (uint256))`. -/
def decodeUint256 (data : List UInt8) : Nat := data.foldl (fun n b => n * 256 + b.toNat) 0

def onTokenTransfer (sender : Address) (amount : Nat) (data : List UInt8) : CoordinatorTx Unit := do
  nonReentrant
  let w ← Tx.get
  Tx.revertIf (sender ≠ w.coordinator.link) .onlyCallableFromLink
  Tx.revertIf (data.length ≠ 32) .invalidCalldata
  let subId := decodeUint256 data
  Tx.revertIf ((w.coordinator.subscriptionConfigs subId).owner = 0) .invalidSubscription
  let subscription := w.coordinator.subscriptions subId
  let balance ← Tx.view fun _ => addUint 96 subscription.balance (amount % 2 ^ 96)
  let totalBalance ← Tx.view fun _ => addUint 96 w.coordinator.totalBalance (amount % 2 ^ 96)
  write fun c => { c.setSubscription subId { subscription with balance := balance } with
    totalBalance := totalBalance }
  -- the new balance as the event has it
  let _ ← Tx.view fun _ => addU subscription.balance amount
  pure ()

/-- `fundSubscriptionWithNative`: the ETH is there before the body runs. -/
def fundSubscriptionWithNative (value subId : Nat) : CoordinatorTx Unit := do
  Tx.modify fun w => { w with balance := w.balance + value }
  nonReentrant
  let w ← Tx.get
  Tx.revertIf ((w.coordinator.subscriptionConfigs subId).owner = 0) .invalidSubscription
  let subscription := w.coordinator.subscriptions subId
  let nativeBalance ← Tx.view fun _ => addUint 96 subscription.nativeBalance (value % 2 ^ 96)
  let totalNativeBalance ← Tx.view fun _ =>
    addUint 96 w.coordinator.totalNativeBalance (value % 2 ^ 96)
  write fun c => { c.setSubscription subId { subscription with nativeBalance := nativeBalance } with
    totalNativeBalance := totalNativeBalance }
  -- the new balance as the event has it
  let _ ← Tx.view fun _ => addU subscription.nativeBalance value
  pure ()

/-- `getSubscription`: the balances, the number of requests, the owner and the
consumers. -/
def getSubscription (c : Coordinator) (subId : Nat) :
    Result CoordinatorError (Nat × Nat × Nat × Address × List Address) := do
  let subOwner := (c.subscriptionConfigs subId).owner
  Result.revertIf (subOwner = 0) .invalidSubscription
  let subscription := c.subscriptions subId
  pure (subscription.balance, subscription.nativeBalance, subscription.reqCount, subOwner,
    (c.subscriptionConfigs subId).consumers)

def getActiveSubscriptionIds (c : Coordinator) (startIndex maxCount : Nat) :
    Result CoordinatorError (List Nat) := do
  let numSubs := c.subIds.length
  Result.revertIf (startIndex ≥ numSubs) .indexOutOfRange
  let sum ← addU startIndex maxCount
  let endIndex := if sum > numSubs ∨ maxCount = 0 then numSubs else sum
  (List.range (endIndex - startIndex)).mapM fun idx =>
    match c.subIds.at? (idx + startIndex) with
    | some id => pure id
    | none => .error (.panic .indexOutOfBounds)

def createSubscription (H : Keccak) (this sender : Address) (blockhash : Nat) :
    CoordinatorTx Nat := do
  nonReentrant
  let w ← Tx.get
  let currentSubNonce := w.coordinator.currentSubNonce
  let subId := H.subId sender blockhash this currentSubNonce
  let nextSubNonce ← Tx.view fun _ => addUint 64 currentSubNonce 1
  write fun c => { c with
    currentSubNonce := nextSubNonce
    subscriptions := update c.subscriptions subId .zero
    subscriptionConfigs := update c.subscriptionConfigs subId ⟨sender, 0, []⟩
    subIds := c.subIds.add subId }
  pure subId

def requestSubscriptionOwnerTransfer (sender : Address) (subId : Nat) (newOwner : Address) :
    CoordinatorTx Unit := do
  onlySubOwner sender subId
  nonReentrant
  write fun c => c.setSubscriptionConfig subId
    { c.subscriptionConfigs subId with requestedOwner := newOwner }

def acceptSubscriptionOwnerTransfer (sender : Address) (subId : Nat) : CoordinatorTx Unit := do
  nonReentrant
  let w ← Tx.get
  let config := w.coordinator.subscriptionConfigs subId
  Tx.revertIf (config.owner = 0) .invalidSubscription
  Tx.revertIf (config.requestedOwner ≠ sender) (.mustBeRequestedOwner config.requestedOwner)
  write fun c => c.setSubscriptionConfig subId { config with owner := sender, requestedOwner := 0 }

def addConsumer (sender : Address) (subId : Nat) (consumer : Address) : CoordinatorTx Unit := do
  onlySubOwner sender subId
  nonReentrant
  let w ← Tx.get
  let consumerConfig := w.coordinator.consumers consumer subId
  if consumerConfig.active then pure ()
  else
    let config := w.coordinator.subscriptionConfigs subId
    Tx.revertIf (config.consumers.length = MAX_CONSUMERS) .tooManyConsumers
    write fun c => (c.setConsumer consumer subId { consumerConfig with active := true }
      ).setSubscriptionConfig subId { config with consumers := config.consumers ++ [consumer] }

end AdvFoundry.Vrf
