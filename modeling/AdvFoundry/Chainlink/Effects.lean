import AdvFoundry.Chainlink.Preimages

/-!
# What the coordinator's functions write

Most functions keep control, and each of them makes one of few changes:
`exec_plain`. The others are a request (`requestRandomWords_ok`), a delivery, and
the functions that pay ETH or call out, for which the parts between two hand-overs
are listed.
-/

namespace AdvFoundry.Vrf

open Function

/-- The functions that keep control, but for the request of random words, the
recovery of LINK and the configuration. -/
def Call.Plain : Call → Prop
  | ownerCancelSubscription _ => False
  | recoverFunds _ => False
  | recoverNativeFunds _ => False
  | withdrawNative _ => False
  | cancelSubscription _ _ => False
  | setConfig _ _ => False
  | requestRandomWords _ _ => False
  | fulfillRandomWords _ _ _ _ => False
  | migrate _ _ => False
  | _ => True

/-- What a plain function may change, with the hashes in `K`. -/
inductive Change (H : Keccak) (this : Address) (K : List Preimage) (w : World) : World → Prop
  | same : Change H this K w w
  | admin (owner pendingOwner : Address) (provingKeys : Nat → ProvingKey)
      (provingKeyHashes : List Nat) (migrationTargets : List Address) :
      Change H this K w (w.setCoordinator { w.coordinator with
        owner := owner
        pendingOwner := pendingOwner
        provingKeys := provingKeys
        provingKeyHashes := provingKeyHashes
        migrationTargets := migrationTargets })
  | link (link feed : Address) (hunset : w.coordinator.link = 0) :
      Change H this K w (w.setCoordinator { w.coordinator with
        link := link
        linkNativeFeed := feed })
  | withdrawn (recipient : Address)
      (htotal : w.coordinator.withdrawableTokens ≤ w.coordinator.totalBalance)
      (hheld : w.coordinator.withdrawableTokens ≤ w.tokens w.coordinator.link this) :
      Change H this K w
        { w with
          coordinator := { w.coordinator with
            withdrawableTokens := 0
            totalBalance := w.coordinator.totalBalance - w.coordinator.withdrawableTokens }
          tokens := moveTokens w.tokens w.coordinator.link this recipient
            w.coordinator.withdrawableTokens }
  | linkFunded (sender : Address) (amount credited subId : Nat) (hsender : sender ≠ this)
      (hlink : w.coordinator.link ≠ 0) (hcredited : credited ≤ amount)
      (halive : (w.coordinator.subscriptionConfigs subId).owner ≠ 0) :
      Change H this K w
        { w with
          coordinator := { w.coordinator.setSubscription subId
            { w.coordinator.subscriptions subId with
              balance := (w.coordinator.subscriptions subId).balance + credited } with
            totalBalance := w.coordinator.totalBalance + credited }
          tokens := moveTokens w.tokens w.coordinator.link sender this amount }
  | nativeFunded (value credited subId : Nat) (hcredited : credited ≤ value)
      (halive : (w.coordinator.subscriptionConfigs subId).owner ≠ 0) :
      Change H this K w
        { w with
          coordinator := { w.coordinator.setSubscription subId
            { w.coordinator.subscriptions subId with
              nativeBalance := (w.coordinator.subscriptions subId).nativeBalance + credited } with
            totalNativeBalance := w.coordinator.totalNativeBalance + credited }
          balance := w.balance + value }
  | created (sender : Address) (blockhash : Nat) (hsender : sender ≠ 0)
      (hhashed : .subId sender blockhash w.coordinator.currentSubNonce ∈ K) :
      Change H this K w (w.setCoordinator { w.coordinator with
        currentSubNonce := w.coordinator.currentSubNonce + 1
        subscriptions := update w.coordinator.subscriptions
          (H.subId sender blockhash this w.coordinator.currentSubNonce) .zero
        subscriptionConfigs := update w.coordinator.subscriptionConfigs
          (H.subId sender blockhash this w.coordinator.currentSubNonce) ⟨sender, 0, []⟩
        subIds := w.coordinator.subIds.add
          (H.subId sender blockhash this w.coordinator.currentSubNonce) })
  | owned (subId : Nat) (owner requestedOwner : Address) (howner : owner ≠ 0)
      (halive : (w.coordinator.subscriptionConfigs subId).owner ≠ 0) :
      Change H this K w (w.setCoordinator (w.coordinator.setSubscriptionConfig subId
        { w.coordinator.subscriptionConfigs subId with
          owner := owner
          requestedOwner := requestedOwner }))
  | consumerAdded (subId : Nat) (consumer : Address)
      (halive : (w.coordinator.subscriptionConfigs subId).owner ≠ 0)
      (hnew : (w.coordinator.consumers consumer subId).active = false)
      (hroom : (w.coordinator.subscriptionConfigs subId).consumers.length ≠ MAX_CONSUMERS) :
      Change H this K w (w.setCoordinator ((w.coordinator.setConsumer consumer subId
        { w.coordinator.consumers consumer subId with active := true }).setSubscriptionConfig subId
        { w.coordinator.subscriptionConfigs subId with
          consumers := (w.coordinator.subscriptionConfigs subId).consumers ++ [consumer] }))
  | consumerRemoved (subId : Nat) (consumer : Address)
      (halive : (w.coordinator.subscriptionConfigs subId).owner ≠ 0)
      (hactive : (w.coordinator.consumers consumer subId).active = true)
      (hpending : pendingRequestExists w.coordinator subId = false) :
      Change H this K w (w.setCoordinator ((w.coordinator.setSubscriptionConfig subId
        { w.coordinator.subscriptionConfigs subId with
          consumers := swapRemove (w.coordinator.subscriptionConfigs subId).consumers consumer }
        ).setConsumer consumer subId
        { w.coordinator.consumers consumer subId with active := false }))
  | received (tokens : Address → Address → Nat) (amount : Nat)
      (hheld : ∀ token, w.tokens token this ≤ tokens token this) :
      Change H this K w { w with tokens := tokens, balance := w.balance + amount }

namespace EffectLemmas

variable {H : Keccak} {K : List Preimage} {this sender a : Address} {w w' : World} {u : Unit}
  {subId amount : Nat}

/-! ## Tokens -/

section Tokens

variable {tokens : Address → Address → Nat} {token src dst holder : Address}

theorem moveTokens_of_ne {other : Address} (h : other ≠ token) :
    moveTokens tokens token src dst amount other = tokens other :=
  update_of_ne h _ _

theorem moveTokens_self :
    moveTokens tokens token src dst amount token = credit (debit (tokens token) src amount) dst amount :=
  update_self _ _ _

/-- Only the sender has less. -/
theorem le_moveTokens (h : holder ≠ src) :
    tokens token holder ≤ moveTokens tokens token src dst amount token holder := by
  rw [moveTokens_self, credit_apply, debit_of_ne h]
  split <;> omega

/-- The sender has at most the amount less. -/
theorem le_moveTokens_add (tokens : Address → Address → Nat) (token src dst : Address) (amount : Nat) :
    tokens token src ≤ moveTokens tokens token src dst amount token src + amount := by
  rw [moveTokens_self, credit_apply, debit_self]
  split <;> omega

/-- What is sent by someone else arrives in full. -/
theorem moveTokens_arrived (tokens : Address → Address → Nat) (token : Address) (amount : Nat)
    (h : dst ≠ src) :
    moveTokens tokens token src dst amount token dst = tokens token dst + amount := by
  rw [moveTokens_self, credit_self, debit_of_ne h]

end Tokens

/-! ## The plain functions -/

theorem transferOwnership_change {newOwner : Address}
    (h : transferOwnership sender newOwner w = .ok (u, w')) : Change H this K w w' := by
  simp only [transferOwnership, Tx.bind_ok, onlyOwner_ok, Tx.revertIf_ok, write_ok] at h
  obtain ⟨_, _, ⟨-, rfl⟩, _, _, ⟨-, rfl⟩, rfl⟩ := h
  exact .admin _ _ _ _ _

theorem acceptOwnership_change (h : acceptOwnership sender w = .ok (u, w')) :
    Change H this K w w' := by
  simp only [acceptOwnership, Tx.bind_ok, Tx.get_ok, Tx.revertIf_ok, write_ok] at h
  obtain ⟨_, _, ⟨rfl, rfl⟩, _, _, ⟨-, rfl⟩, rfl⟩ := h
  exact .admin _ _ _ _ _

theorem setLINKAndLINKNativeFeed_change {link feed : Address}
    (h : setLINKAndLINKNativeFeed sender link feed w = .ok (u, w')) : Change H this K w w' := by
  simp only [setLINKAndLINKNativeFeed, Tx.bind_ok, onlyOwner_ok, Tx.get_ok, Tx.revertIf_ok,
    write_ok, not_not] at h
  obtain ⟨_, _, ⟨-, rfl⟩, _, _, ⟨rfl, rfl⟩, _, _, ⟨hunset, rfl⟩, rfl⟩ := h
  exact .link link feed hunset

theorem withdraw_change {recipient : Address} (h : withdraw this sender recipient w = .ok (u, w')) :
    Change H this K w w' := by
  simp only [withdraw, Tx.bind_ok, nonReentrant_ok, onlyOwner_ok, Tx.get_ok, Tx.revertIf_ok,
    Tx.view_ok, subU_ok, write_ok, tokenTransfer_ok] at h
  obtain ⟨_, _, ⟨-, rfl⟩, _, _, ⟨-, rfl⟩, _, _, ⟨rfl, rfl⟩, _, _, ⟨-, rfl⟩, _, _, ⟨-, rfl⟩, _, w,
    ⟨⟨htotal, rfl⟩, rfl⟩, _, _, rfl, _, _, ⟨-, -, hheld, -, rfl⟩, -, rfl⟩ := h
  exact .withdrawn recipient htotal hheld

theorem onTokenTransfer_ok {data : List UInt8}
    (h : onTokenTransfer sender amount data w = .ok (u, w')) :
    sender = w.coordinator.link ∧ ∃ subId credited, credited ≤ amount ∧
      (w.coordinator.subscriptionConfigs subId).owner ≠ 0 ∧
      w' = w.setCoordinator { w.coordinator.setSubscription subId
          { w.coordinator.subscriptions subId with
            balance := (w.coordinator.subscriptions subId).balance + credited } with
        totalBalance := w.coordinator.totalBalance + credited } := by
  simp only [onTokenTransfer, Tx.bind_ok, nonReentrant_ok, Tx.get_ok, Tx.revertIf_ok, Tx.view_ok,
    addUint_ok, addU_ok, write_ok, Tx.pure_ok, not_not] at h
  obtain ⟨_, _, ⟨-, rfl⟩, _, _, ⟨rfl, rfl⟩, _, _, ⟨hlink, rfl⟩, _, _, ⟨-, rfl⟩, _, _, ⟨halive, rfl⟩, _, _,
    ⟨⟨-, rfl⟩, rfl⟩, _, _, ⟨⟨-, rfl⟩, rfl⟩, _, _, rfl, _, _, ⟨⟨-, rfl⟩, rfl⟩, -, rfl⟩ := h
  exact ⟨hlink, decodeUint256 data, _, Nat.mod_le _ _, halive, rfl⟩

theorem transferAndCall_change {token : Address} {data : List UInt8} (hsender : sender ≠ this)
    (h : (do
      let _ ← tokenTransfer token sender this amount
      onTokenTransfer token amount data : CoordinatorTx Unit) w = .ok (u, w')) :
    Change H this K w w' := by
  simp only [Tx.bind_ok, tokenTransfer_ok] at h
  obtain ⟨_, _, ⟨htoken, -, -, -, rfl⟩, h⟩ := h
  obtain ⟨hlink, subId, credited, hcredited, halive, rfl⟩ := onTokenTransfer_ok h
  have hlink : token = w.coordinator.link := hlink
  subst hlink
  exact .linkFunded sender amount credited subId hsender htoken hcredited halive

theorem fundSubscriptionWithNative_change {value : Nat}
    (h : fundSubscriptionWithNative value subId w = .ok (u, w')) : Change H this K w w' := by
  simp only [fundSubscriptionWithNative, Tx.bind_ok, Tx.modify_ok, nonReentrant_ok, Tx.get_ok,
    Tx.revertIf_ok, Tx.view_ok, addUint_ok, addU_ok, write_ok, Tx.pure_ok] at h
  obtain ⟨_, _, rfl, _, _, ⟨-, rfl⟩, _, _, ⟨rfl, rfl⟩, _, _, ⟨halive, rfl⟩, _, _, ⟨⟨-, rfl⟩, rfl⟩, _, _,
    ⟨⟨-, rfl⟩, rfl⟩, _, _, rfl, _, _, ⟨⟨-, rfl⟩, rfl⟩, -, rfl⟩ := h
  exact .nativeFunded value _ subId (Nat.mod_le _ _) halive

theorem createSubscription_change {blockhash id : Nat} (hsender : sender ≠ 0)
    (hhashed : .subId sender blockhash w.coordinator.currentSubNonce ∈ K)
    (h : createSubscription H this sender blockhash w = .ok (id, w')) : Change H this K w w' := by
  simp only [createSubscription, Tx.bind_ok, nonReentrant_ok, Tx.get_ok, Tx.view_ok, addUint_ok,
    write_ok, Tx.pure_ok] at h
  obtain ⟨_, _, ⟨-, rfl⟩, _, _, ⟨rfl, rfl⟩, _, _, ⟨⟨-, rfl⟩, rfl⟩, _, _, rfl, -, rfl⟩ := h
  exact .created sender blockhash hsender hhashed

theorem requestSubscriptionOwnerTransfer_change {newOwner : Address}
    (h : requestSubscriptionOwnerTransfer sender subId newOwner w = .ok (u, w')) :
    Change H this K w w' := by
  simp only [requestSubscriptionOwnerTransfer, Tx.bind_ok, onlySubOwner_ok, nonReentrant_ok,
    write_ok] at h
  obtain ⟨_, _, ⟨halive, -, rfl⟩, _, _, ⟨-, rfl⟩, rfl⟩ := h
  exact .owned subId _ newOwner halive halive

theorem acceptSubscriptionOwnerTransfer_change (hsender : sender ≠ 0)
    (h : acceptSubscriptionOwnerTransfer sender subId w = .ok (u, w')) : Change H this K w w' := by
  simp only [acceptSubscriptionOwnerTransfer, Tx.bind_ok, nonReentrant_ok, Tx.get_ok, Tx.revertIf_ok,
    write_ok] at h
  obtain ⟨_, _, ⟨-, rfl⟩, _, _, ⟨rfl, rfl⟩, _, _, ⟨halive, rfl⟩, _, _, ⟨-, rfl⟩, rfl⟩ := h
  exact .owned subId sender 0 hsender halive

theorem addConsumer_change {consumer : Address}
    (h : addConsumer sender subId consumer w = .ok (u, w')) : Change H this K w w' := by
  simp only [addConsumer, Tx.bind_ok, onlySubOwner_ok, nonReentrant_ok, Tx.get_ok] at h
  obtain ⟨_, _, ⟨halive, -, rfl⟩, _, _, ⟨-, rfl⟩, _, _, ⟨rfl, rfl⟩, h⟩ := h
  split at h
  · obtain ⟨-, rfl⟩ := Tx.pure_ok.mp h
    exact .same
  · next hnew =>
    simp only [Tx.bind_ok, Tx.revertIf_ok, write_ok] at h
    obtain ⟨_, _, ⟨hroom, rfl⟩, rfl⟩ := h
    exact .consumerAdded subId consumer halive (Bool.not_eq_true _ ▸ hnew) hroom

theorem removeConsumer_change {consumer : Address}
    (h : removeConsumer sender subId consumer w = .ok (u, w')) : Change H this K w w' := by
  simp only [removeConsumer, Tx.bind_ok, onlySubOwner_ok, nonReentrant_ok, Tx.get_ok, Tx.revertIf_ok,
    write_ok, Bool.not_eq_true, Bool.not_eq_false] at h
  obtain ⟨_, _, ⟨halive, -, rfl⟩, _, _, ⟨-, rfl⟩, _, _, ⟨rfl, rfl⟩, _, _, ⟨hpending, rfl⟩, _, _,
    ⟨hactive, rfl⟩, rfl⟩ := h
  exact .consumerRemoved subId consumer halive hactive hpending

theorem registerProvingKey_change {pk : Nat × Nat} {maxGas : Nat}
    (h : registerProvingKey H sender pk maxGas w = .ok (u, w')) : Change H this K w w' := by
  simp only [registerProvingKey, Tx.bind_ok, onlyOwner_ok, Tx.get_ok, Tx.revertIf_ok, write_ok] at h
  obtain ⟨_, _, ⟨-, rfl⟩, _, _, ⟨rfl, rfl⟩, _, _, ⟨-, rfl⟩, rfl⟩ := h
  exact .admin _ _ _ _ _

theorem deregisterProvingKey_change {pk : Nat × Nat}
    (h : deregisterProvingKey H sender pk w = .ok (u, w')) : Change H this K w w' := by
  simp only [deregisterProvingKey, Tx.bind_ok, onlyOwner_ok, Tx.get_ok, Tx.revertIf_ok,
    write_ok] at h
  obtain ⟨_, _, ⟨-, rfl⟩, _, _, ⟨rfl, rfl⟩, _, _, ⟨-, rfl⟩, rfl⟩ := h
  exact .admin _ _ _ _ _

theorem registerMigratableCoordinator_change {target : Address}
    (h : registerMigratableCoordinator sender target w = .ok (u, w')) : Change H this K w w' := by
  simp only [registerMigratableCoordinator, Tx.bind_ok, onlyOwner_ok, Tx.get_ok, Tx.revertIf_ok,
    write_ok] at h
  obtain ⟨_, _, ⟨-, rfl⟩, _, _, ⟨rfl, rfl⟩, _, _, ⟨-, rfl⟩, rfl⟩ := h
  exact .admin _ _ _ _ _

theorem deregisterMigratableCoordinator_change {target : Address}
    (h : deregisterMigratableCoordinator sender target w = .ok (u, w')) : Change H this K w w' := by
  simp only [deregisterMigratableCoordinator, Tx.bind_ok, onlyOwner_ok, Tx.get_ok, Tx.revertIf_ok,
    write_ok] at h
  obtain ⟨_, _, ⟨-, rfl⟩, _, _, ⟨rfl, rfl⟩, _, _, ⟨-, rfl⟩, rfl⟩ := h
  exact .admin _ _ _ _ _

/-! ## The parts of the other functions -/

/-- The storage after `requestRandomWords`. -/
def requested (H : Keccak) (w : World) (sender : Address) (req : Request) (blockNumber : Nat)
    (nativePayment : Bool) : World :=
  let consumerConfig := w.coordinator.consumers sender req.subId
  let requestId := computeRequestId H req.keyHash sender req.subId (consumerConfig.nonce + 1)
  w.setCoordinator
    { w.coordinator.setConsumer sender req.subId
        { consumerConfig with
          nonce := consumerConfig.nonce + 1
          pendingReqCount := consumerConfig.pendingReqCount + 1 } with
      requestCommitments := update w.coordinator.requestCommitments requestId
        (H.commitment requestId
          { blockNum := blockNumber
            subId := req.subId
            callbackGasLimit := req.callbackGasLimit
            numWords := req.numWords
            sender := sender
            extraArgs := argsToBytes nativePayment }) }

theorem requestRandomWords_ok {req : Request} {blockNumber id : Nat}
    (h : requestRandomWords H sender req blockNumber w = .ok (id, w')) :
    w.coordinator.config.reentrancyLock = false ∧
      (w.coordinator.subscriptionConfigs req.subId).owner ≠ 0 ∧
      (w.coordinator.consumers sender req.subId).active = true ∧ req.numWords ≤ MAX_NUM_WORDS ∧
      id = computeRequestId H req.keyHash sender req.subId
        ((w.coordinator.consumers sender req.subId).nonce + 1) ∧
      ∃ nativePayment, fromBytes req.extraArgs = .ok nativePayment ∧
        w' = requested H w sender req blockNumber nativePayment := by
  simp only [requestRandomWords, Tx.bind_ok, nonReentrant_ok, Tx.get_ok, Tx.revertIf_ok, Tx.view_ok,
    addUint_ok, write_ok, Tx.pure_ok, Bool.not_eq_false, Nat.not_lt] at h
  obtain ⟨_, _, ⟨hlock, rfl⟩, _, _, ⟨rfl, rfl⟩, _, _, ⟨halive, rfl⟩, _, _, ⟨hactive, rfl⟩, _, _, ⟨-, rfl⟩,
    _, _, ⟨-, rfl⟩, _, _, ⟨hwords, rfl⟩, _, _, ⟨⟨-, rfl⟩, rfl⟩, _, _, ⟨⟨-, rfl⟩, rfl⟩, nativePayment, _,
    ⟨hargs, rfl⟩, _, _, rfl, rfl, rfl⟩ := h
  exact ⟨hlock, halive, hactive, hwords, rfl, nativePayment, hargs, rfl⟩

/-- The storage after `_deleteSubscription`. -/
def deleted (w : World) (subId : Nat) : World :=
  w.setCoordinator { w.coordinator with
    consumers := deleteConsumers subId (w.coordinator.subscriptionConfigs subId).consumers
      w.coordinator.consumers
    subscriptionConfigs := update w.coordinator.subscriptionConfigs subId .zero
    subscriptions := update w.coordinator.subscriptions subId .zero
    subIds := w.coordinator.subIds.remove subId
    totalBalance := w.coordinator.totalBalance - (w.coordinator.subscriptions subId).balance
    totalNativeBalance :=
      w.coordinator.totalNativeBalance - (w.coordinator.subscriptions subId).nativeBalance }

theorem deleteSubscription_ok {balances : Nat × Nat} :
    deleteSubscription subId w = .ok (balances, w') ↔
      (w.coordinator.subscriptions subId).balance ≤ w.coordinator.totalBalance ∧
      (w.coordinator.subscriptions subId).nativeBalance ≤ w.coordinator.totalNativeBalance ∧
      balances = ((w.coordinator.subscriptions subId).balance,
        (w.coordinator.subscriptions subId).nativeBalance) ∧ w' = deleted w subId := by
  simp only [deleteSubscription, Tx.bind_ok, Tx.get_ok, write_ok, Tx.view_ok, subU_ok, Tx.pure_ok]
  constructor
  · rintro ⟨_, w, ⟨rfl, rfl⟩, _, _, rfl, _, _, ⟨rfl, rfl⟩, _, _, ⟨⟨hlink, rfl⟩, rfl⟩, _, _,
      ⟨⟨hnative, rfl⟩, rfl⟩, _, _, rfl, rfl, rfl⟩
    exact ⟨hlink, hnative, rfl, rfl⟩
  · rintro ⟨hlink, hnative, rfl, rfl⟩
    exact ⟨w, w, ⟨rfl, rfl⟩, (), _, rfl, _, _, ⟨rfl, rfl⟩, _, _, ⟨⟨hlink, rfl⟩, rfl⟩, _, _,
      ⟨⟨hnative, rfl⟩, rfl⟩, (), _, rfl, rfl, rfl⟩

/-- A config is deleted where the consumer is on the list. -/
theorem deleteConsumers_apply {list : List Address} {consumers : Address → Nat → ConsumerConfig}
    {id : Nat} :
    deleteConsumers subId list consumers a id =
      if id = subId ∧ a ∈ list then .zero else consumers a id := by
  unfold deleteConsumers
  induction list generalizing consumers with
  | nil => simp
  | cons b list ih =>
    rw [List.foldl_cons, ih]
    by_cases hid : id = subId
    · by_cases hlist : a ∈ list
      · simp [hid, hlist]
      · by_cases ha : a = b
        · subst ha
          simp [hid, hlist]
        · simp [hid, hlist, ha]
    · by_cases ha : a = b
      · subst ha
        simp [hid]
      · simp [hid, ha]

/-- LINK is sent when the token is set and there is any to send. -/
theorem payLink_ok {dst : Address} {e : CoordinatorError}
    (h : payLink this dst amount e w = .ok (u, w')) :
    ((w.coordinator.link = 0 ∨ amount = 0) ∧ w' = w) ∨
      (w.coordinator.link ≠ 0 ∧ amount ≠ 0 ∧ amount ≤ w.tokens w.coordinator.link this ∧
        w' = { w with tokens := moveTokens w.tokens w.coordinator.link this dst amount }) := by
  simp only [payLink, Tx.bind_ok, Tx.get_ok] at h
  obtain ⟨_, _, ⟨rfl, rfl⟩, h⟩ := h
  split at h
  · next hlink =>
    simp only [Tx.bind_ok, tokenTransfer_ok, Tx.revertIf_ok] at h
    obtain ⟨_, _, ⟨-, -, hheld, -, rfl⟩, -, rfl⟩ := h
    exact .inr ⟨hlink.1, hlink.2, hheld, rfl⟩
  · next hnone =>
    obtain ⟨-, rfl⟩ := Tx.pure_ok.mp h
    refine .inl ⟨?_, rfl⟩
    by_contra hboth
    exact hnone (not_or.mp hboth)

/-- The counters of a delivery. -/
theorem countDelivery_ok {rc : RequestCommitment} (h : countDelivery rc w = .ok (u, w')) :
    0 < (w.coordinator.consumers rc.sender rc.subId).pendingReqCount ∧
      w' = w.setCoordinator ((w.coordinator.setSubscription rc.subId
        { w.coordinator.subscriptions rc.subId with
          reqCount := (w.coordinator.subscriptions rc.subId).reqCount + 1 }).setConsumer rc.sender
        rc.subId { w.coordinator.consumers rc.sender rc.subId with
          pendingReqCount := (w.coordinator.consumers rc.sender rc.subId).pendingReqCount - 1 }) := by
  simp only [countDelivery, Tx.bind_ok, Tx.get_ok, Tx.view_ok, addUint_ok, subU_ok, write_ok] at h
  obtain ⟨_, _, ⟨rfl, rfl⟩, _, _, ⟨⟨-, rfl⟩, rfl⟩, _, _, ⟨⟨hpending, rfl⟩, rfl⟩, rfl⟩ := h
  exact ⟨hpending, rfl⟩

/-- A charge moves the payment from the subscription to the withdrawable funds. -/
theorem chargePayment_ok {payment : Nat} {nativePayment : Bool}
    (h : chargePayment payment nativePayment subId w = .ok (u, w')) :
    (payment ≤ (w.coordinator.subscriptions subId).nativeBalance ∧
      w' = w.setCoordinator { w.coordinator.setSubscription subId
          { w.coordinator.subscriptions subId with
            nativeBalance := (w.coordinator.subscriptions subId).nativeBalance - payment } with
        withdrawableNative := w.coordinator.withdrawableNative + payment }) ∨
    (payment ≤ (w.coordinator.subscriptions subId).balance ∧
      w' = w.setCoordinator { w.coordinator.setSubscription subId
          { w.coordinator.subscriptions subId with
            balance := (w.coordinator.subscriptions subId).balance - payment } with
        withdrawableTokens := w.coordinator.withdrawableTokens + payment }) := by
  simp only [chargePayment, Tx.bind_ok, Tx.get_ok] at h
  obtain ⟨_, _, ⟨rfl, rfl⟩, h⟩ := h
  split at h
  · simp only [Tx.bind_ok, Tx.revertIf_ok, Tx.view_ok, addUint_ok, write_ok, Nat.not_lt] at h
    obtain ⟨_, _, ⟨henough, rfl⟩, _, _, ⟨⟨-, rfl⟩, rfl⟩, rfl⟩ := h
    exact .inl ⟨henough, rfl⟩
  · simp only [Tx.bind_ok, Tx.revertIf_ok, Tx.view_ok, addUint_ok, write_ok, Nat.not_lt] at h
    obtain ⟨_, _, ⟨henough, rfl⟩, _, _, ⟨⟨-, rfl⟩, rfl⟩, rfl⟩ := h
    exact .inr ⟨henough, rfl⟩

/-- What a delivery leaves to do after the callback: to count it and to charge it. -/
theorem settleDelivery_ok {rc : RequestCommitment} {onlyPremium : Bool} {f : Fulfilment}
    {gasPrice : Nat} (h : settleDelivery rc onlyPremium f gasPrice w = .ok (u, w')) :
    ∃ w₁ payment nativePayment, countDelivery rc w = .ok ((), w₁) ∧
      paysNative rc = .ok nativePayment ∧
      chargePayment payment nativePayment rc.subId w₁ = .ok (u, w') := by
  simp only [settleDelivery, Tx.bind_ok, Tx.view_ok] at h
  obtain ⟨_, w₁, hcount, nativePayment, _, ⟨hnative, rfl⟩, payment, _, ⟨-, rfl⟩, hcharge⟩ := h
  exact ⟨_, payment, nativePayment, hcount, hnative, hcharge⟩

/-- The recovery of LINK sends all that is more than the total, if it is more. -/
theorem recoverFunds_ok {dst : Address} (h : recoverFunds this sender dst w = .ok (u, w')) :
    w.coordinator.link ≠ 0 ∧
      w.coordinator.totalBalance ≤ w.tokens w.coordinator.link this ∧
      (w' = w ∨ ∃ amount,
        w.coordinator.totalBalance + amount = w.tokens w.coordinator.link this ∧
        w' = { w with tokens := moveTokens w.tokens w.coordinator.link this dst amount }) := by
  simp only [recoverFunds, Tx.bind_ok, onlyOwner_ok, Tx.get_ok, Tx.revertIf_ok, Nat.not_lt] at h
  obtain ⟨_, _, ⟨-, rfl⟩, _, _, ⟨rfl, rfl⟩, _, _, ⟨hlink, rfl⟩, _, _, ⟨henough, rfl⟩, h⟩ := h
  refine ⟨hlink, henough, ?_⟩
  split at h
  · simp only [Tx.bind_ok, tokenTransfer_ok, Tx.revertIf_ok] at h
    obtain ⟨_, _, ⟨-, -, -, -, rfl⟩, -, rfl⟩ := h
    exact .inr ⟨_, Nat.add_sub_cancel' henough, rfl⟩
  · exact .inl (Tx.pure_ok.mp h).2

/-- A new configuration comes with the lock free. -/
theorem setConfig_ok {config : Config} {fallback : Int}
    (h : setConfig sender config fallback w = .ok (u, w')) :
    w' = w.setCoordinator { w.coordinator with
      config := { config with reentrancyLock := false }
      fallbackWeiPerUnitLink := fallback } := by
  simp only [setConfig, Tx.bind_ok, onlyOwner_ok, Tx.revertIf_ok, write_ok] at h
  obtain ⟨_, _, ⟨-, rfl⟩, _, _, ⟨-, rfl⟩, _, _, ⟨-, rfl⟩, _, _, ⟨-, rfl⟩, _, _, ⟨-, rfl⟩, _, _,
    ⟨-, rfl⟩, rfl⟩ := h
  rfl

/-- The proof of a delivery answers a request that is open, with its commitment. -/
theorem getRandomnessFromProof_ok {proof : Proof} {rc : RequestCommitment} {f : Fulfilment}
    {output : Output} (h : getRandomnessFromProof H proof rc f w = .ok output) :
    output.requestId = H.requestId (H.keyHash proof.pk) proof.seed ∧
      w.coordinator.requestCommitments output.requestId ≠ 0 ∧
      w.coordinator.requestCommitments output.requestId = H.commitment output.requestId rc := by
  simp only [getRandomnessFromProof, Result.bind_ok, Result.revertIf_ok, Result.ofOption_ok,
    Result.pure_ok, not_not] at h
  obtain ⟨_, -, _, hopen, _, hcommitment, _, -, _, -, rfl⟩ := h
  exact ⟨rfl, hopen, hcommitment⟩

end EffectLemmas

open EffectLemmas

/-- A plain function keeps control and makes one of the changes. -/
theorem exec_plain (H : Keccak) (K : List Preimage) {this : Address} (m : Msg this)
    (hplain : m.call.Plain) :
    ∃ x : CoordinatorTx Unit, m.exec H = .tx x ∧
      ∀ w w', m.preimages H w ⊆ K → x w = .ok ((), w') → Change H this K w w' := by
  rcases m with ⟨sender, hthis, hzero, call⟩
  cases call with
  | ownerCancelSubscription | recoverFunds | recoverNativeFunds | withdrawNative
  | cancelSubscription | setConfig | requestRandomWords | fulfillRandomWords | migrate => exact hplain.elim
  | transferOwnership newOwner => exact ⟨_, rfl, fun _ _ _ => transferOwnership_change⟩
  | acceptOwnership => exact ⟨_, rfl, fun _ _ _ => acceptOwnership_change⟩
  | setLINKAndLINKNativeFeed link feed =>
    exact ⟨_, rfl, fun _ _ _ => setLINKAndLINKNativeFeed_change⟩
  | withdraw recipient => exact ⟨_, rfl, fun _ _ _ => withdraw_change⟩
  | transferAndCall token amount data => exact ⟨_, rfl, fun _ _ _ => transferAndCall_change hthis⟩
  | fundSubscriptionWithNative value subId =>
    exact ⟨_, rfl, fun _ _ _ => fundSubscriptionWithNative_change⟩
  | createSubscription blockhash =>
    refine ⟨_, rfl, fun w w' hhashed h => ?_⟩
    obtain ⟨_, _, hcreate, hrest⟩ := Tx.bind_ok.mp h
    obtain ⟨-, rfl⟩ := Tx.pure_ok.mp hrest
    exact createSubscription_change hzero (hhashed (List.mem_singleton_self _)) hcreate
  | requestSubscriptionOwnerTransfer subId newOwner =>
    exact ⟨_, rfl, fun _ _ _ => requestSubscriptionOwnerTransfer_change⟩
  | acceptSubscriptionOwnerTransfer subId =>
    exact ⟨_, rfl, fun _ _ _ => acceptSubscriptionOwnerTransfer_change hzero⟩
  | addConsumer subId consumer => exact ⟨_, rfl, fun _ _ _ => addConsumer_change⟩
  | removeConsumer subId consumer => exact ⟨_, rfl, fun _ _ _ => removeConsumer_change⟩
  | registerProvingKey pk maxGas => exact ⟨_, rfl, fun _ _ _ => registerProvingKey_change⟩
  | deregisterProvingKey pk => exact ⟨_, rfl, fun _ _ _ => deregisterProvingKey_change⟩
  | registerMigratableCoordinator target =>
    exact ⟨_, rfl, fun _ _ _ => registerMigratableCoordinator_change⟩
  | deregisterMigratableCoordinator target =>
    exact ⟨_, rfl, fun _ _ _ => deregisterMigratableCoordinator_change⟩
  | transfer token dst amount =>
    refine ⟨_, rfl, fun w w' hhashed h => ?_⟩
    obtain ⟨_, _, hmove, hrest⟩ := Tx.bind_ok.mp h
    obtain ⟨-, rfl⟩ := Tx.pure_ok.mp hrest
    obtain ⟨-, -, -, -, rfl⟩ := tokenTransfer_ok.mp hmove
    refine .received _ 0 fun other => ?_
    by_cases hother : other = token
    · subst hother
      exact le_moveTokens hthis.symm
    · rw [moveTokens_of_ne hother]
  | mint token dst amount =>
    refine ⟨Tx.modify fun w => { w with
      tokens := update w.tokens token (credit (w.tokens token) dst amount) }, rfl,
      fun w w' hhashed h => ?_⟩
    rw [Tx.modify_ok.mp h]
    refine .received _ 0 fun other => ?_
    by_cases hother : other = token
    · subst hother
      rw [update_self, credit_apply]
      split <;> omega
    · rw [update_of_ne hother]
  | force amount =>
    refine ⟨Tx.modify fun w => { w with balance := w.balance + amount }, rfl,
      fun w w' hhashed h => ?_⟩
    rw [Tx.modify_ok.mp h]
    exact .received _ amount fun _ => Nat.le_refl _

end AdvFoundry.Vrf
