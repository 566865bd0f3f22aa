import AdvFoundry.Chainlink.Subscriptions
import AdvFoundry.Evm.Abi

/-!
# Chainlink's VRF coordinator

`VRFCoordinatorV2_5.sol` (vendored under `FundMe/lib`): the proving keys, the
configuration, requests and their deliveries, the charge for a delivery, and the
migration to another coordinator.

What the chain brings to a delivery is in `Fulfilment`: the block hash, whether
the proof of the randomness is right, gas and prices.
-/

namespace AdvFoundry.Vrf

open Function

def MAX_REQUEST_CONFIRMATIONS : Nat := 200
def MAX_NUM_WORDS : Nat := 500
def PREMIUM_PERCENTAGE_MAX : Nat := 155

/-- `VRFV2PlusClient.RandomWordsRequest`, with `extraArgs` as it is sent. -/
structure Request where
  keyHash : Nat
  subId : Nat
  requestConfirmations : Nat
  callbackGasLimit : Nat
  numWords : Nat
  extraArgs : List UInt8

/-- What a delivery shows of its `VRF.Proof`: the key and the seed. -/
structure Proof where
  pk : Nat × Nat
  seed : Nat

/-- The chain at a delivery: `msg.data.length`, the hash of the request's block,
what the check of the proof gives (`VRF._randomValueFromVRFProof`), `tx.gasprice`,
whether the gas is enough for the callback and there is code to call, the gas
used until the charge, the fee for the layer below, the answer and time of
`LINK_NATIVE_FEED`, and `block.timestamp`. -/
structure Fulfilment where
  dataLength : Nat
  blockHash : Option Nat
  randomness : Option Nat
  gasPrice : Nat
  callable : Bool
  gasUsed : Nat
  l1CostWei : Nat
  feed : Option (Int × Nat)
  timestamp : Nat

/-! ## Proving keys -/

def registerProvingKey (H : Keccak) (sender : Address) (pk : Nat × Nat) (maxGas : Nat) :
    CoordinatorTx Unit := do
  onlyOwner sender
  let kh := H.keyHash pk
  let w ← Tx.get
  Tx.revertIf ((w.coordinator.provingKeys kh).exists_ = true) (.provingKeyAlreadyRegistered kh)
  write fun c => { c with
    provingKeys := update c.provingKeys kh ⟨true, maxGas⟩
    provingKeyHashes := c.provingKeyHashes ++ [kh] }

def deregisterProvingKey (H : Keccak) (sender : Address) (pk : Nat × Nat) : CoordinatorTx Unit := do
  onlyOwner sender
  let kh := H.keyHash pk
  let w ← Tx.get
  Tx.revertIf ((w.coordinator.provingKeys kh).exists_ = false) (.noSuchProvingKey kh)
  write fun c => { c with
    provingKeys := update c.provingKeys kh ⟨false, 0⟩
    provingKeyHashes := swapRemove c.provingKeyHashes kh }

/-- `setConfig`. The lock is part of what is written. -/
def setConfig (sender : Address) (config : Config) (fallbackWeiPerUnitLink : Int) :
    CoordinatorTx Unit := do
  onlyOwner sender
  Tx.revertIf (config.minimumRequestConfirmations > MAX_REQUEST_CONFIRMATIONS)
    (.invalidRequestConfirmations config.minimumRequestConfirmations
      config.minimumRequestConfirmations MAX_REQUEST_CONFIRMATIONS)
  Tx.revertIf (fallbackWeiPerUnitLink ≤ 0) (.invalidLinkWeiPrice fallbackWeiPerUnitLink)
  Tx.revertIf (config.fulfillmentFlatFeeLinkDiscountPPM > config.fulfillmentFlatFeeNativePPM)
    (.linkDiscountTooHigh config.fulfillmentFlatFeeLinkDiscountPPM
      config.fulfillmentFlatFeeNativePPM)
  Tx.revertIf (config.nativePremiumPercentage > PREMIUM_PERCENTAGE_MAX)
    (.invalidPremiumPercentage config.nativePremiumPercentage PREMIUM_PERCENTAGE_MAX)
  Tx.revertIf (config.linkPremiumPercentage > PREMIUM_PERCENTAGE_MAX)
    (.invalidPremiumPercentage config.linkPremiumPercentage PREMIUM_PERCENTAGE_MAX)
  write fun c => { c with
    config := { config with reentrancyLock := false }
    fallbackWeiPerUnitLink := fallbackWeiPerUnitLink }

/-! ## Requests -/

/-- `VRFV2PlusClient.EXTRA_ARGS_V1_TAG`. -/
def EXTRA_ARGS_V1_TAG : List UInt8 := [0x92, 0xfd, 0x13, 0x38]

/-- `VRFV2PlusClient._argsToBytes`. -/
def argsToBytes (nativePayment : Bool) : List UInt8 :=
  EXTRA_ARGS_V1_TAG ++ wordBytes (if nativePayment then 1 else 0)

/-- `_fromBytes`: the `bool` of the decoded word is `0` or `1`, or the decoding
reverts. -/
def fromBytes (extraArgs : List UInt8) : Result CoordinatorError Bool := do
  if extraArgs.length = 0 then pure false
  else
    Result.revertIf (extraArgs.take 4 ≠ EXTRA_ARGS_V1_TAG) .invalidExtraArgsTag
    let word := (extraArgs.drop 4).take 32
    if word = wordBytes 1 then pure true
    else if word = wordBytes 0 then pure false
    else .error .empty

/-- `_computeRequestId`, without the `preSeed`. -/
def computeRequestId (H : Keccak) (keyHash : Nat) (sender : Address) (subId nonce : Nat) : Nat :=
  H.requestId keyHash (H.preSeed keyHash sender subId nonce)

def requestRandomWords (H : Keccak) (sender : Address) (req : Request) (blockNumber : Nat) :
    CoordinatorTx Nat := do
  nonReentrant
  let w ← Tx.get
  let config := w.coordinator.config
  Tx.revertIf ((w.coordinator.subscriptionConfigs req.subId).owner = 0) .invalidSubscription
  let consumerConfig := w.coordinator.consumers sender req.subId
  Tx.revertIf (consumerConfig.active = false) (.invalidConsumer req.subId sender)
  Tx.revertIf (req.requestConfirmations < config.minimumRequestConfirmations ∨
      req.requestConfirmations > MAX_REQUEST_CONFIRMATIONS)
    (.invalidRequestConfirmations req.requestConfirmations config.minimumRequestConfirmations
      MAX_REQUEST_CONFIRMATIONS)
  Tx.revertIf (req.callbackGasLimit > config.maxGasLimit)
    (.gasLimitTooBig req.callbackGasLimit config.maxGasLimit)
  Tx.revertIf (req.numWords > MAX_NUM_WORDS) (.numWordsTooBig req.numWords MAX_NUM_WORDS)
  let nonce ← Tx.view fun _ => addUint 64 consumerConfig.nonce 1
  let pendingReqCount ← Tx.view fun _ => addUint 64 consumerConfig.pendingReqCount 1
  let requestId := computeRequestId H req.keyHash sender req.subId nonce
  let nativePayment ← Tx.view fun _ => fromBytes req.extraArgs
  let commitment := H.commitment requestId
    { blockNum := blockNumber
      subId := req.subId
      callbackGasLimit := req.callbackGasLimit
      numWords := req.numWords
      sender := sender
      extraArgs := argsToBytes nativePayment }
  write fun c =>
    { c.setConsumer sender req.subId
        { consumerConfig with nonce := nonce, pendingReqCount := pendingReqCount } with
      requestCommitments := update c.requestCommitments requestId commitment }
  pure requestId

/-! ## Deliveries -/

/-- `Output`. -/
structure Output where
  maxGas : Nat
  requestId : Nat
  randomness : Nat

def getRandomnessFromProof (H : Keccak) (proof : Proof) (rc : RequestCommitment) (f : Fulfilment)
    (w : World) : Result CoordinatorError Output := do
  let keyHash := H.keyHash proof.pk
  let key := w.coordinator.provingKeys keyHash
  Result.revertIf (key.exists_ = false) (.noSuchProvingKey keyHash)
  let requestId := H.requestId keyHash proof.seed
  let commitment := w.coordinator.requestCommitments requestId
  Result.revertIf (commitment = 0) .noCorrespondingRequest
  Result.revertIf (commitment ≠ H.commitment requestId rc) .incorrectCommitment
  Result.revertIf (f.blockHash = none) (.blockhashNotInStore rc.blockNum)
  let randomness ← Result.ofOption f.randomness
  pure ⟨key.maxGas, requestId, randomness⟩

def getValidatedGasPrice (onlyPremium : Bool) (gasPrice gasLaneMaxGas : Nat) :
    Result CoordinatorError Nat :=
  if gasPrice > gasLaneMaxGas then
    if onlyPremium then .ok gasLaneMaxGas
    else .error (.error (.gasPriceExceeded gasPrice gasLaneMaxGas))
  else .ok gasPrice

/-- `100 + premiumPercentage` on `uint8`, or the premium alone. -/
def chargedPercentage (onlyPremium : Bool) (premiumPercentage : Nat) :
    Result CoordinatorError Nat :=
  if onlyPremium then .ok premiumPercentage else addUint 8 100 premiumPercentage

def calculatePaymentAmountNative (f : Fulfilment) (weiPerUnitGas : Nat) (onlyPremium : Bool)
    (c : Coordinator) : Result CoordinatorError Nat := do
  let gas ← addU c.config.gasAfterPaymentCalculation f.gasUsed
  let baseFeeWei ← mulU weiPerUnitGas gas
  let flatFeeWei ← mulU (10 ^ 12) c.config.fulfillmentFlatFeeNativePPM
  let cost ← addU f.l1CostWei baseFeeWei
  let percentage ← chargedPercentage onlyPremium c.config.nativePremiumPercentage
  let product ← mulU cost percentage
  let payment ← addU (product / 100) flatFeeWei
  pure (payment % 2 ^ 96)

/-- `_getFeedData`, without the flag for the event. -/
def getFeedData (f : Fulfilment) (c : Coordinator) : Result CoordinatorError Int := do
  let (weiPerUnitLink, updatedAt) ← Result.ofOption f.feed
  if c.config.stalenessSeconds > 0 then
    let age ← subU f.timestamp updatedAt
    pure (if c.config.stalenessSeconds < age then c.fallbackWeiPerUnitLink else weiPerUnitLink)
  else pure weiPerUnitLink

def calculatePaymentAmountLink (f : Fulfilment) (weiPerUnitGas : Nat) (onlyPremium : Bool)
    (c : Coordinator) : Result CoordinatorError Nat := do
  let weiPerUnitLink ← getFeedData f c
  Result.revertIf (weiPerUnitLink ≤ 0) (.invalidLinkWeiPrice weiPerUnitLink)
  let gas ← addU c.config.gasAfterPaymentCalculation f.gasUsed
  let gasWei ← mulU weiPerUnitGas gas
  let cost ← addU gasWei f.l1CostWei
  let scaled ← mulU (10 ^ 18) cost
  let paymentNoFee ← divU scaled weiPerUnitLink.toNat
  let flatFee ← subU c.config.fulfillmentFlatFeeNativePPM c.config.fulfillmentFlatFeeLinkDiscountPPM
  let flatFeeWei ← mulU (10 ^ 12) flatFee
  let flatFeeScaled ← mulU (10 ^ 18) flatFeeWei
  let flatFeeJuels ← divU flatFeeScaled weiPerUnitLink.toNat
  let percentage ← chargedPercentage onlyPremium c.config.linkPremiumPercentage
  let product ← mulU paymentNoFee percentage
  let payment ← addU (product / 100) flatFeeJuels
  Result.revertIf (payment > 10 ^ 27) .paymentTooLarge
  pure payment

def calculatePaymentAmount (f : Fulfilment) (weiPerUnitGas : Nat) (nativePayment onlyPremium : Bool)
    (c : Coordinator) : Result CoordinatorError Nat :=
  if nativePayment then calculatePaymentAmountNative f weiPerUnitGas onlyPremium c
  else calculatePaymentAmountLink f weiPerUnitGas onlyPremium c

def chargePayment (payment : Nat) (nativePayment : Bool) (subId : Nat) : CoordinatorTx Unit := do
  let w ← Tx.get
  let subscription := w.coordinator.subscriptions subId
  if nativePayment then
    Tx.revertIf (subscription.nativeBalance < payment) .insufficientBalance
    let withdrawable ← Tx.view fun _ => addUint 96 w.coordinator.withdrawableNative payment
    write fun c => { c.setSubscription subId { subscription with
        nativeBalance := subscription.nativeBalance - payment } with
      withdrawableNative := withdrawable }
  else
    Tx.revertIf (subscription.balance < payment) .insufficientBalance
    let withdrawable ← Tx.view fun _ => addUint 96 w.coordinator.withdrawableTokens payment
    write fun c => { c.setSubscription subId { subscription with
        balance := subscription.balance - payment } with
      withdrawableTokens := withdrawable }

/-- The counters of the subscription and of its consumer after a delivery. -/
def countDelivery (rc : RequestCommitment) : CoordinatorTx Unit := do
  let w ← Tx.get
  let subscription := w.coordinator.subscriptions rc.subId
  let consumerConfig := w.coordinator.consumers rc.sender rc.subId
  let reqCount ← Tx.view fun _ => addUint 64 subscription.reqCount 1
  let pendingReqCount ← Tx.view fun _ => subU consumerConfig.pendingReqCount 1
  write fun c => (c.setSubscription rc.subId { subscription with reqCount := reqCount }
    ).setConsumer rc.sender rc.subId { consumerConfig with pendingReqCount := pendingReqCount }

/-- `uint8(rc.extraArgs[rc.extraArgs.length - 1]) == 1`. -/
def paysNative (rc : RequestCommitment) : Result CoordinatorError Bool :=
  match rc.extraArgs.getLast? with
  | none => .error (.panic .arithmetic)
  | some b => .ok (b == 1)

/-- What follows the callback of a delivery. -/
def settleDelivery (rc : RequestCommitment) (onlyPremium : Bool) (f : Fulfilment) (gasPrice : Nat) :
    CoordinatorTx Unit := do
  countDelivery rc
  let nativePayment ← Tx.view fun _ => paysNative rc
  let payment ← Tx.view fun w =>
    calculatePaymentAmount f gasPrice nativePayment onlyPremium w.coordinator
  chargePayment payment nativePayment rc.subId

/-- `_deliverRandomness`: the callback runs with the lock taken, and may revert. -/
def deliverRandomness (requestId : Nat) (rc : RequestCommitment) (randomWords : List Nat)
    (f : Fulfilment) : CoordinatorProc Unit := do
  .tx (write fun c => c.setLock true)
  .tx (Tx.revertIf (f.callable = false) .callee)
  let _ ← Proc.call (.rawFulfillRandomWords rc.sender requestId randomWords)
  .tx (write fun c => c.setLock false)

def fulfillRandomWords (H : Keccak) (proof : Proof) (rc : RequestCommitment) (onlyPremium : Bool)
    (f : Fulfilment) : CoordinatorProc Unit := do
  .tx nonReentrant
  .tx (Tx.revertIf (f.dataLength > 804) (.msgDataTooBig f.dataLength 804))
  let output ← .tx (Tx.view fun w => getRandomnessFromProof H proof rc f w)
  let gasPrice ← .tx (Tx.view fun _ => getValidatedGasPrice onlyPremium f.gasPrice output.maxGas)
  let randomWords := (List.range rc.numWords).map (H.randomWord output.randomness)
  .tx (write fun c => { c with
    requestCommitments := update c.requestCommitments output.requestId 0 })
  deliverRandomness output.requestId rc randomWords f
  .tx (settleDelivery rc onlyPremium f gasPrice)

/-! ## Subscriptions with requests -/

def pendingRequestExists (c : Coordinator) (subId : Nat) : Bool :=
  (c.subscriptionConfigs subId).consumers.any fun consumer =>
    (c.consumers consumer subId).pendingReqCount > 0

def removeConsumer (sender : Address) (subId : Nat) (consumer : Address) : CoordinatorTx Unit := do
  onlySubOwner sender subId
  nonReentrant
  let w ← Tx.get
  Tx.revertIf (pendingRequestExists w.coordinator subId = true) .pendingRequestExists
  let consumerConfig := w.coordinator.consumers consumer subId
  Tx.revertIf (consumerConfig.active = false) (.invalidConsumer subId consumer)
  let config := w.coordinator.subscriptionConfigs subId
  write fun c => (c.setSubscriptionConfig subId
    { config with consumers := swapRemove config.consumers consumer }
    ).setConsumer consumer subId { consumerConfig with active := false }

def cancelSubscription (this sender : Address) (subId : Nat) (dst : Address) :
    CoordinatorProc Unit := do
  .tx (onlySubOwner sender subId)
  .tx nonReentrant
  let w ← .tx Tx.get
  .tx (Tx.revertIf (pendingRequestExists w.coordinator subId = true) .pendingRequestExists)
  cancelSubscriptionHelper this subId dst

/-! ## Migration -/

def isTargetRegistered (c : Coordinator) (target : Address) : Bool := target ∈ c.migrationTargets

def registerMigratableCoordinator (sender target : Address) : CoordinatorTx Unit := do
  onlyOwner sender
  let w ← Tx.get
  Tx.revertIf (isTargetRegistered w.coordinator target = true)
    (.coordinatorAlreadyRegistered target)
  write fun c => { c with migrationTargets := c.migrationTargets ++ [target] }

def deregisterMigratableCoordinator (sender target : Address) : CoordinatorTx Unit := do
  onlyOwner sender
  let w ← Tx.get
  Tx.revertIf (isTargetRegistered w.coordinator target = false) (.coordinatorNotRegistered target)
  write fun c => { c with migrationTargets := swapRemove c.migrationTargets target }

/-- `onMigration{value: nativeBalance}`, which the new coordinator must accept. -/
def callOnMigration (newCoordinator : Address) (data : MigrationData) : CoordinatorProc Unit := do
  let w ← .tx Tx.get
  .tx (Tx.revertIf (w.balance < data.nativeBalance) .callee)
  .tx (Tx.modify fun w => { w with balance := w.balance - data.nativeBalance })
  let answer ← Proc.call (.onMigration newCoordinator data.nativeBalance data)
  .tx (Tx.revertIf (answer = none) .callee)

/-- The loop over the consumers, each of which must accept. -/
def setCoordinators (newCoordinator : Address) : List Address → CoordinatorProc Unit
  | [] => pure ()
  | consumer :: rest => do
    let answer ← Proc.call (.setCoordinator consumer newCoordinator)
    .tx (Tx.revertIf (answer = none) .callee)
    setCoordinators newCoordinator rest

def migrate (this sender : Address) (subId : Nat) (newCoordinator : Address) :
    CoordinatorProc Unit := do
  .tx nonReentrant
  let w ← .tx Tx.get
  .tx (Tx.revertIf (isTargetRegistered w.coordinator newCoordinator = false)
    (.coordinatorNotRegistered newCoordinator))
  let (balance, nativeBalance, _, subOwner, consumers) ←
    .tx (Tx.view fun w => getSubscription w.coordinator subId)
  .tx (Tx.revertIf (subOwner ≠ sender) (.require "Not subscription owner"))
  .tx (Tx.revertIf (pendingRequestExists w.coordinator subId = true)
    (.require "Pending request exists"))
  let _ ← .tx (deleteSubscription subId)
  callOnMigration newCoordinator ⟨subId, subOwner, consumers, balance, nativeBalance⟩
  .tx (payLink this newCoordinator balance (.require "insufficient funds"))
  .tx (write fun c => c.setLock true)
  setCoordinators newCoordinator consumers
  .tx (write fun c => c.setLock false)

/-! ## The system -/

/-- The external functions, with LINK that is sent along, and what the rest of
the chain does to tokens and ETH. -/
inductive Call
  | transferOwnership (newOwner : Address)
  | acceptOwnership
  | setLINKAndLINKNativeFeed (link linkNativeFeed : Address)
  | ownerCancelSubscription (subId : Nat)
  | recoverFunds (dst : Address)
  | recoverNativeFunds (dst : Address)
  | withdraw (recipient : Address)
  | withdrawNative (recipient : Address)
  | transferAndCall (token : Address) (amount : Nat) (data : List UInt8)
  | fundSubscriptionWithNative (value subId : Nat)
  | createSubscription (blockhash : Nat)
  | requestSubscriptionOwnerTransfer (subId : Nat) (newOwner : Address)
  | acceptSubscriptionOwnerTransfer (subId : Nat)
  | addConsumer (subId : Nat) (consumer : Address)
  | removeConsumer (subId : Nat) (consumer : Address)
  | cancelSubscription (subId : Nat) (dst : Address)
  | registerProvingKey (pk : Nat × Nat) (maxGas : Nat)
  | deregisterProvingKey (pk : Nat × Nat)
  | setConfig (config : Config) (fallbackWeiPerUnitLink : Int)
  | requestRandomWords (req : Request) (blockNumber : Nat)
  | fulfillRandomWords (proof : Proof) (rc : RequestCommitment) (onlyPremium : Bool)
      (f : Fulfilment)
  | registerMigratableCoordinator (target : Address)
  | deregisterMigratableCoordinator (target : Address)
  | migrate (subId : Nat) (newCoordinator : Address)
  | transfer (token dst : Address) (amount : Nat)
  | mint (token dst : Address) (amount : Nat)
  | force (amount : Nat)

/-- A call, by anybody but the coordinator itself. Nobody has the address zero. -/
structure Msg (this : Address) where
  sender : Address
  sender_ne_this : sender ≠ this
  sender_ne_zero : sender ≠ 0
  call : Call

def Msg.exec (H : Keccak) {this : Address} (m : Msg this) : CoordinatorProc Unit :=
  match m.call with
  | .transferOwnership newOwner => .tx (Vrf.transferOwnership m.sender newOwner)
  | .acceptOwnership => .tx (Vrf.acceptOwnership m.sender)
  | .setLINKAndLINKNativeFeed link feed => .tx (Vrf.setLINKAndLINKNativeFeed m.sender link feed)
  | .ownerCancelSubscription subId => Vrf.ownerCancelSubscription this m.sender subId
  | .recoverFunds dst => .tx (Vrf.recoverFunds this m.sender dst)
  | .recoverNativeFunds dst => Vrf.recoverNativeFunds m.sender dst
  | .withdraw recipient => .tx (Vrf.withdraw this m.sender recipient)
  | .withdrawNative recipient => Vrf.withdrawNative m.sender recipient
  | .transferAndCall token amount data => .tx do
      let _ ← tokenTransfer token m.sender this amount
      Vrf.onTokenTransfer token amount data
  | .fundSubscriptionWithNative value subId => .tx (Vrf.fundSubscriptionWithNative value subId)
  | .createSubscription blockhash => .tx do
      let _ ← Vrf.createSubscription H this m.sender blockhash
      pure ()
  | .requestSubscriptionOwnerTransfer subId newOwner =>
      .tx (Vrf.requestSubscriptionOwnerTransfer m.sender subId newOwner)
  | .acceptSubscriptionOwnerTransfer subId =>
      .tx (Vrf.acceptSubscriptionOwnerTransfer m.sender subId)
  | .addConsumer subId consumer => .tx (Vrf.addConsumer m.sender subId consumer)
  | .removeConsumer subId consumer => .tx (Vrf.removeConsumer m.sender subId consumer)
  | .cancelSubscription subId dst => Vrf.cancelSubscription this m.sender subId dst
  | .registerProvingKey pk maxGas => .tx (Vrf.registerProvingKey H m.sender pk maxGas)
  | .deregisterProvingKey pk => .tx (Vrf.deregisterProvingKey H m.sender pk)
  | .setConfig config fallback => .tx (Vrf.setConfig m.sender config fallback)
  | .requestRandomWords req blockNumber => .tx do
      let _ ← Vrf.requestRandomWords H m.sender req blockNumber
      pure ()
  | .fulfillRandomWords proof rc onlyPremium f => Vrf.fulfillRandomWords H proof rc onlyPremium f
  | .registerMigratableCoordinator target => .tx (Vrf.registerMigratableCoordinator m.sender target)
  | .deregisterMigratableCoordinator target =>
      .tx (Vrf.deregisterMigratableCoordinator m.sender target)
  | .migrate subId newCoordinator => Vrf.migrate this m.sender subId newCoordinator
  | .transfer token dst amount => .tx do
      let _ ← tokenTransfer token m.sender dst amount
      pure ()
  | .mint token dst amount => .tx <| Tx.modify fun w => { w with
      tokens := update w.tokens token (credit (w.tokens token) dst amount) }
  | .force amount => .tx (Tx.modify fun w => { w with balance := w.balance + amount })

abbrev CoordinatorMachine := Machine CoordinatorError World Query Unit

def Step (H : Keccak) (this : Address) :
    CoordinatorMachine → Event (Msg this) Unit → CoordinatorMachine → Prop :=
  Machine.Step (Msg.exec H)

/-- The coordinator as its constructor leaves it, deployed by `deployer`. -/
def Coordinator.new (deployer : Address) : Coordinator where
  owner := deployer
  pendingOwner := 0
  link := 0
  linkNativeFeed := 0
  consumers := fun _ _ => .zero
  subscriptionConfigs := fun _ => .zero
  subscriptions := fun _ => .zero
  currentSubNonce := 0
  subIds := .empty
  totalBalance := 0
  totalNativeBalance := 0
  withdrawableTokens := 0
  withdrawableNative := 0
  config := ⟨0, 0, false, 0, 0, 0, 0, 0, 0⟩
  fallbackWeiPerUnitLink := 0
  provingKeys := fun _ => ⟨false, 0⟩
  provingKeyHashes := []
  requestCommitments := fun _ => 0
  migrationTargets := []

end AdvFoundry.Vrf
