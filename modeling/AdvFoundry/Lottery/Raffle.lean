import AdvFoundry.Chainlink.Vrf
import AdvFoundry.Evm.Machine

/-!
# Raffle

`lottery/src/Raffle.sol` with the part of `VRFConsumerBaseV2Plus` it uses, and
its composition with a VRF coordinator that is not replaced.

The payment to the winner hands over control, with the balance already moved, so
a delivery is a `Proc`. All other functions keep control.

Gas is not modelled: `i_callbackGasLimit` is passed on with the request, and no
callback runs out of it. One that did would leave the raffle as one whose winner
refuses the prize.
-/

namespace AdvFoundry.Lottery

inductive RaffleState
  | OPEN
  | CALCULATING_WINNER
  deriving DecidableEq

/-- `uint256(s_raffleState)`. -/
def RaffleState.toUint256 : RaffleState → Nat
  | OPEN => 0
  | CALCULATING_WINNER => 1

/-- `Raffle`: its immutables `i_entranceFee`, `i_keyHash`, `i_interval`,
`i_subscriptionId`, `i_callbackGasLimit` and its storage `s_players`,
`s_lastBlockTimeStamp`, `s_recentWinner`, `s_raffleState`. -/
structure Raffle where
  entranceFee : Nat
  keyHash : Nat
  interval : Nat
  subscriptionId : Nat
  callbackGasLimit : Nat
  players : List Address
  lastBlockTimeStamp : Nat
  recentWinner : Address
  raffleState : RaffleState

/-- The raffle, its ETH, the coordinator and the block time. -/
structure World where
  raffle : Raffle
  balance : Nat
  coordinator : VRFCoordinator
  timestamp : Nat

/-- The addresses of the raffle and of its coordinator `s_vrfCoordinator`. -/
structure Site where
  this : Address
  vrfCoordinator : Address

inductive RaffleError
  | notEnoughEthSent
  | transferFailed
  | raffleClosed
  | upkeepNotNeeded (contractBalance raffleState playersLength : Nat)
  | zeroAddress
  | onlyCoordinatorCanFulfill (have_ want : Address)
  | vrf (e : VrfError)
  deriving DecidableEq

/-- A payment of ETH to an account. -/
structure Payment where
  dst : Address
  amount : Nat

abbrev RaffleTx := Tx RaffleError World
abbrev RaffleProc := Proc RaffleError World Payment Unit

def REQUEST_CONFIRMATIONS : Nat := 3
def NUMBER_OF_WORDS : Nat := 1

/-- `Raffle`'s constructor, at the time of the deployment. -/
def constructor (entranceFee : Nat) (vrfCordinator : Address)
    (interval gasLane subscriptionId callbackGasLimit timestamp : Nat) :
    Result RaffleError Raffle := do
  Result.revertIf (vrfCordinator = 0) .zeroAddress
  pure
    { entranceFee := entranceFee
      keyHash := gasLane
      interval := interval
      subscriptionId := subscriptionId
      callbackGasLimit := callbackGasLimit
      players := []
      lastBlockTimeStamp := timestamp
      recentWinner := 0
      raffleState := .OPEN }

namespace World

def setRaffle (w : World) (r : Raffle) : World := { w with raffle := r }

def setCoordinator (w : World) (v : VRFCoordinator) : World := { w with coordinator := v }

end World

/-- A call of the coordinator. -/
def callVrf {α : Type} (x : Tx VrfError VRFCoordinator α) : RaffleTx α :=
  Tx.call (·.coordinator) (fun v w => w.setCoordinator v) .vrf x

/-! ## The functions of `Raffle` -/

/-- `enterRaffle`: the ETH is there before the body runs. -/
def enterRaffle (sender : Address) (value : Nat) : RaffleTx Unit := do
  Tx.modify fun w => { w with balance := w.balance + value }
  let w ← Tx.get
  Tx.revertIf (value < w.raffle.entranceFee) .notEnoughEthSent
  Tx.revertIf (w.raffle.raffleState ≠ .OPEN) .raffleClosed
  Tx.modify fun w => w.setRaffle { w.raffle with players := w.raffle.players ++ [sender] }

def checkUpkeep (w : World) : Result RaffleError Bool := do
  let elapsed ← subU w.timestamp w.raffle.lastBlockTimeStamp
  pure (decide (elapsed ≥ w.raffle.interval ∧ w.raffle.raffleState = .OPEN ∧
    w.raffle.players.length > 0 ∧ w.balance > 0))

/-- `performUpkeep`. The coordinator answers with `requestId`, or refuses. -/
def performUpkeep (site : Site) (requestId : Option Nat) : RaffleTx Unit := do
  let upkeepNeeded ← Tx.view checkUpkeep
  let w ← Tx.get
  Tx.revertIf (upkeepNeeded = false)
    (.upkeepNotNeeded w.balance w.raffle.raffleState.toUint256 w.raffle.players.length)
  Tx.modify fun w => w.setRaffle { w.raffle with raffleState := .CALCULATING_WINNER }
  callVrf <| VRFCoordinator.requestRandomWords site.this
    { keyHash := w.raffle.keyHash
      subId := w.raffle.subscriptionId
      requestConfirmations := REQUEST_CONFIRMATIONS
      callbackGasLimit := w.raffle.callbackGasLimit
      numWords := NUMBER_OF_WORDS
      nativePayment := false } requestId

/-- `dst.call{value: address(this).balance}("")`: the ETH leaves before the code
of `dst` runs, and comes back when that code reverts. -/
def payAll (dst : Address) : RaffleProc Bool := do
  let w ← .tx Tx.get
  .tx (Tx.modify fun w => { w with balance := 0 })
  match ← Proc.call ⟨dst, w.balance⟩ with
  | some () => pure true
  | none =>
    .tx (Tx.modify fun w' => { w' with balance := w.balance })
    pure false

/-- The winner `fulfillRandomWords` draws: `randomWords[0] % s_players.length` is
an index into `s_players`. -/
def drawWinner (players : List Address) (randomWords : List Nat) : Result RaffleError Address :=
  match randomWords with
  | [] => .error (.panic .indexOutOfBounds)
  | word :: _ =>
    if players.length = 0 then .error (.panic .divisionByZero)
    else
      match players[word % players.length]? with
      | none => .error (.panic .indexOutOfBounds)
      | some winner => .ok winner

def fulfillRandomWords (randomWords : List Nat) : RaffleProc Unit := do
  let recentWinner ← .tx (Tx.view fun w => drawWinner w.raffle.players randomWords)
  .tx <| Tx.modify fun w => w.setRaffle { w.raffle with
    recentWinner := recentWinner
    raffleState := .OPEN
    lastBlockTimeStamp := w.timestamp
    players := [] }
  let success ← payAll recentWinner
  .tx (Tx.revertIf (success = false) .transferFailed)

/-- `VRFConsumerBaseV2Plus.rawFulfillRandomWords`. -/
def rawFulfillRandomWords (site : Site) (sender : Address) (randomWords : List Nat) :
    RaffleProc Unit := do
  .tx (Tx.revertIf (sender ≠ site.vrfCoordinator)
    (.onlyCoordinatorCanFulfill sender site.vrfCoordinator))
  fulfillRandomWords randomWords

/-! ## The system -/

/-- `VRFCoordinatorV2_5.fulfillRandomWords`, called by anyone with a proof of the
words for the request. A request of another consumer goes to that consumer;
what its callback calls is a call of its own here. -/
def deliver (site : Site) (requestId : Nat) (word : Nat → Nat) (charged : Bool) :
    RaffleProc Unit := do
  let pending ← .tx (callVrf (VRFCoordinator.takeRequest requestId))
  if pending.sender = site.this then
    let _ ← Proc.attempt <| rawFulfillRandomWords site site.vrfCoordinator
      ((List.range pending.request.numWords).map word)
    .tx (callVrf (VRFCoordinator.finish charged))
  else
    .tx (callVrf (VRFCoordinator.finish charged))

/-- Everything that can happen: the functions of the raffle and deliveries, the
requests of other consumers, ETH that is forced in, and time passing. -/
inductive Call
  | enterRaffle (value : Nat)
  | performUpkeep (requestId : Option Nat)
  | rawFulfillRandomWords (randomWords : List Nat)
  | deliver (requestId : Nat) (word : Nat → Nat) (charged : Bool)
  | request (request : RandomWordsRequest) (requestId : Option Nat)
  | force (amount : Nat)
  | wait (seconds : Nat)

/-- Who sends which call. The raffle calls nobody but the coordinator and the
winner, and the coordinator calls the raffle in a delivery only, so neither is
the sender. -/
structure Msg (site : Site) where
  sender : Address
  sender_ne_this : sender ≠ site.this
  sender_ne_coordinator : sender ≠ site.vrfCoordinator
  call : Call

def Msg.exec {site : Site} (m : Msg site) : RaffleProc Unit :=
  match m.call with
  | .enterRaffle value => .tx (Lottery.enterRaffle m.sender value)
  | .performUpkeep id => .tx (Lottery.performUpkeep site id)
  | .rawFulfillRandomWords words => Lottery.rawFulfillRandomWords site m.sender words
  | .deliver id word charged => Lottery.deliver site id word charged
  | .request request id => .tx (callVrf (VRFCoordinator.requestRandomWords m.sender request id))
  | .force amount => .tx (Tx.modify fun w => { w with balance := w.balance + amount })
  | .wait seconds => .tx (Tx.modify fun w => { w with timestamp := w.timestamp + seconds })

abbrev RaffleMachine := Machine RaffleError World Payment Unit

def Step (site : Site) : RaffleMachine → Event (Msg site) Unit → RaffleMachine → Prop :=
  Machine.Step Msg.exec

/-- A world in which the raffle was just constructed. The coordinator keeps a
record of the ids of its open requests, and none of these is the raffle's. -/
structure Deployed (site : Site) (w : World) : Prop where
  built : ∃ fee interval gasLane subscription gasLimit,
    constructor fee site.vrfCoordinator interval gasLane subscription gasLimit w.timestamp =
      .ok w.raffle
  issued : ∀ id, w.coordinator.requests id ≠ none → w.coordinator.issued id = true
  no_request : ∀ id, ¬ w.coordinator.Outstanding site.this id

end AdvFoundry.Lottery
