import AdvFoundry.Chainlink.Lifecycle

/-!
# Requests that can be delivered

No run leaves an open request behind, as long as the owner does not cancel its
subscription: it keeps the consumer from being removed and the subscription from
being cancelled or migrated, and whoever brings a proof for it delivers it. The
consumer can do in the callback what it likes, but for one thing: what it does must
not end with the subscription cancelled by the owner, or unable to pay.

`ownerCancelSubscription` does not look at open requests. Those of a subscription
it cancels stay open for ever: the count of its consumers' requests is gone, and
`fulfillRandomWords` takes one from it after the callback
(`open_requests_deliverable_or_stranded`).
-/

namespace AdvFoundry.Vrf

open Function PreimageLemmas EffectLemmas BookLemmas LifecycleLemmas
open VRFCoordinator (Op Tracks takenIds inDelivery)

/-- The subscription of the request can pay for the delivery. -/
structure Payable (c : Coordinator) (p : Pending) (onlyPremium : Bool) (f : Fulfilment)
    (gasPrice payment : Nat) : Prop where
  charged : calculatePaymentAmount f gasPrice p.request.nativePayment onlyPremium c = .ok payment
  balance : payment ≤ if p.request.nativePayment = true
    then (c.subscriptions p.request.subId).nativeBalance
    else (c.subscriptions p.request.subId).balance
  withdrawable : (if p.request.nativePayment = true then c.withdrawableNative
    else c.withdrawableTokens) + payment < 2 ^ 96
  reqCount : (c.subscriptions p.request.subId).reqCount + 1 < 2 ^ 64

/-- What a delivery of the request needs: a proof under a registered key, room for
the callback, and a subscription that can pay. -/
structure Fulfillable (H : Keccak) (c : Coordinator) (id : Nat) (p : Pending) (proof : Proof)
    (onlyPremium : Bool) (f : Fulfilment) (gasPrice payment : Nat) : Prop
    extends Payable c p onlyPremium f gasPrice payment where
  requestId : proof.requestId H = id
  key : (c.provingKeys (H.keyHash proof.pk)).exists_ = true
  dataLength : f.dataLength ≤ 804
  callable : f.callable = true
  blockHash : f.blockHash ≠ none
  randomness : f.randomness ≠ none
  priced : getValidatedGasPrice onlyPremium f.gasPrice
    (c.provingKeys (H.keyHash proof.pk)).maxGas = .ok gasPrice

/-- The delivery that waits completes with this event, and the request is closed. -/
def Completes (H : Keccak) (this : Address) (m : CoordinatorMachine) (ev : Event (Msg this) Unit)
    (id : Nat) : Prop :=
  ∃ m', Step H this m ev m' ∧ m'.stack = [] ∧ m'.world.coordinator.requestCommitments id = 0

/-- Anybody can deliver the request, which was made in the block `blockNum`: its
consumer is called back with as many words as it asked for, and may make any calls in
the callback. If it then reverts, the delivery completes, and also if it returns,
unless it leaves the subscription cancelled or unable to pay. `m` is what these events
led to. -/
def Deliverable (H : Keccak) (this : Address) (start : CoordinatorMachine)
    (events : List (Event (Msg this) Unit)) (m : CoordinatorMachine) (id : Nat) (p : Pending) :
    Prop :=
  ∃ blockNum,
    m.world.coordinator.requestCommitments id = H.commitment id (commitmentOf p blockNum) ∧
    ∀ sender (hthis : sender ≠ this) (hzero : sender ≠ 0) proof onlyPremium f gasPrice payment,
    Fulfillable H m.world.coordinator id p proof onlyPremium f gasPrice payment →
    ∃ (m₁ : CoordinatorMachine) (words : List Nat),
      Step H this m (.call ⟨sender, hthis, hzero,
        .fulfillRandomWords proof (commitmentOf p blockNum) onlyPremium f⟩) m₁ ∧
      m₁.stack.map Frame.query = [.rawFulfillRandomWords p.sender id words] ∧
      words.length = p.request.numWords ∧
      ∀ inside w, Run (LockedStep H this) ⟨m₁.world, []⟩ inside ⟨w, []⟩ →
        Run (Step H this) m₁ inside ⟨w, m₁.stack⟩ ∧
        Completes H this ⟨w, m₁.stack⟩ .fail id ∧
        ∀ payment', w.coordinator.ownerOf p.request.subId ≠ 0 →
          Payable w.coordinator p onlyPremium f gasPrice payment' →
          H.CollisionFree this (hashedIn H start (events ++ .call ⟨sender, hthis, hzero,
            .fulfillRandomWords proof (commitmentOf p blockNum) onlyPremium f⟩ :: inside)) →
          Completes H this ⟨w, m₁.stack⟩ (.answer ()) id

/-- Nobody can remove a consumer of the subscription, cancel it or migrate it,
other than by `ownerCancelSubscription`. -/
def Protected (H : Keccak) (this : Address) (w : World) (subId : Nat) : Prop :=
  ∀ l : Msg this, (∃ a, l.call = .removeConsumer subId a ∨ l.call = .cancelSubscription subId a ∨
    l.call = .migrate subId a) → ∃ e, l.exec H w = .reverted e

namespace LifecycleLemmas

variable {H : Keccak} {this : Address} {K K' : List Preimage} {forced : Nat → Prop} {w w' : World}
  {ops : List Op} {subId id blockNum : Nat} {p : Pending} {proof : Proof} {onlyPremium : Bool}
  {f : Fulfilment} {gasPrice payment : Nat}

/-! ## More hashes -/

theorem books_mono {c : Coordinator} (h : K ⊆ K') (hbooks : Books H this K c) :
    Books H this K' c where
  link := hbooks.link
  native := hbooks.native
  owned := hbooks.owned
  dead := hbooks.dead
  consumers := hbooks.consumers
  nodup := hbooks.nodup
  bounded := hbooks.bounded
  created := fun id hid => by
    obtain ⟨sender, blockhash, nonce, hhashed, hrest⟩ := hbooks.created id hid
    exact ⟨sender, blockhash, nonce, h hhashed, hrest⟩
  unlinked := hbooks.unlinked

/-- What goes together still does when more is hashed and more may be cancelled. -/
theorem agree_mono {q : World × List Op} (h : K ⊆ K') (hp : Agree H this K forced q) :
    Agree H this K' (fun _ => True) q where
  books := books_mono h hp.books
  refines := by
    obtain ⟨v, hrun, hcommitted⟩ := hp.refines
    refine ⟨v, hrun, hcommitted.closed, fun id p hopen => ?_⟩
    obtain ⟨blockNum, hhashed, hrc⟩ := hcommitted.pending id p hopen
    exact ⟨blockNum, h hhashed, hrc⟩
  locked := hp.locked
  keyed := fun sender request id hop => by
    obtain ⟨⟨creator, blockhash, subNonce, hsub, hmade⟩, nonce, hhashed, hid⟩ :=
      hp.keyed sender request id hop
    exact ⟨⟨creator, blockhash, subNonce, h hsub, hmade⟩, nonce, h hhashed, hid⟩
  counted := hp.counted
  listed := hp.listed
  kept := fun _ _ _ _ _ hunforced => absurd trivial hunforced

/-! ## Deliveries that complete -/

theorem paysNative_commitmentOf :
    paysNative (commitmentOf p blockNum) = .ok p.request.nativePayment := by
  unfold commitmentOf
  cases p.request.nativePayment with
  | false => rfl
  | true => rfl

/-- The storage of a delivery once the callback is over, the payment apart. -/
def counted (w : World) (p : Pending) : World :=
  w.setCoordinator ((w.coordinator.setSubscription p.request.subId
    { w.coordinator.subscriptions p.request.subId with
      reqCount := (w.coordinator.subscriptions p.request.subId).reqCount + 1 }).setConsumer
    p.sender p.request.subId { w.coordinator.consumers p.sender p.request.subId with
      pendingReqCount :=
        (w.coordinator.consumers p.sender p.request.subId).pendingReqCount - 1 })

theorem countDelivery_counted
    (hcount : 0 < (w.coordinator.consumers p.sender p.request.subId).pendingReqCount)
    (hreq : (w.coordinator.subscriptions p.request.subId).reqCount + 1 < 2 ^ 64) :
    countDelivery (commitmentOf p blockNum) w = .ok ((), counted w p) := by
  simp only [countDelivery, Tx.bind_ok, Tx.get_ok, Tx.view_ok, addUint_ok, subU_ok, write_ok]
  exact ⟨_, _, ⟨rfl, rfl⟩, _, _, ⟨⟨hreq, rfl⟩, rfl⟩, _, _, ⟨⟨hcount, rfl⟩, rfl⟩, rfl⟩

theorem chargePayment_returns {nativePayment : Bool}
    (hbalance : payment ≤ if nativePayment = true
      then (w.coordinator.subscriptions subId).nativeBalance
      else (w.coordinator.subscriptions subId).balance)
    (hroom : (if nativePayment = true then w.coordinator.withdrawableNative
      else w.coordinator.withdrawableTokens) + payment < 2 ^ 96) :
    ∃ w', chargePayment payment nativePayment subId w = .ok ((), w') := by
  cases nativePayment with
  | true =>
    rw [if_pos rfl] at hbalance hroom
    exact ⟨_, Tx.bind_ok.mpr ⟨w, w, Tx.get_ok.mpr ⟨rfl, rfl⟩, Tx.bind_ok.mpr ⟨(), w,
      Tx.revertIf_ok.mpr ⟨Nat.not_lt.mpr hbalance, rfl⟩, Tx.bind_ok.mpr ⟨_, w,
        Tx.view_ok.mpr ⟨addUint_ok.mpr ⟨hroom, rfl⟩, rfl⟩, write_ok.mpr rfl⟩⟩⟩⟩
  | false =>
    rw [if_neg Bool.false_ne_true] at hbalance hroom
    exact ⟨_, Tx.bind_ok.mpr ⟨w, w, Tx.get_ok.mpr ⟨rfl, rfl⟩, Tx.bind_ok.mpr ⟨(), w,
      Tx.revertIf_ok.mpr ⟨Nat.not_lt.mpr hbalance, rfl⟩, Tx.bind_ok.mpr ⟨_, w,
        Tx.view_ok.mpr ⟨addUint_ok.mpr ⟨hroom, rfl⟩, rfl⟩, write_ok.mpr rfl⟩⟩⟩⟩

/-- What is left of the function after the callback. -/
def afterCallback (rc : RequestCommitment) (onlyPremium : Bool) (f : Fulfilment) (gasPrice : Nat) :
    CoordinatorProc Unit := do
  .tx (write fun c => c.setLock false)
  .tx (settleDelivery rc onlyPremium f gasPrice)

/-- It returns when the request is counted and the subscription can pay. -/
theorem afterCallback_returns (blockNum : Nat)
    (h : Payable w.coordinator p onlyPremium f gasPrice payment)
    (hcount : 0 < (w.coordinator.consumers p.sender p.request.subId).pendingReqCount) :
    ∃ w', afterCallback (commitmentOf p blockNum) onlyPremium f gasPrice w = .returned () w' ∧
      w'.coordinator.requestCommitments = w.coordinator.requestCommitments := by
  -- the lock is released, the delivery is counted, and then the subscription is charged
  let w₁ := w.setCoordinator (w.coordinator.setLock false)
  have hcounted : countDelivery (commitmentOf p blockNum) w₁ = .ok ((), counted w₁ p) :=
    countDelivery_counted hcount h.reqCount
  have hself : (counted w₁ p).coordinator.subscriptions p.request.subId =
      { w.coordinator.subscriptions p.request.subId with
        reqCount := (w.coordinator.subscriptions p.request.subId).reqCount + 1 } :=
    update_self _ _ _
  have hbalance : payment ≤ if p.request.nativePayment = true
      then ((counted w₁ p).coordinator.subscriptions p.request.subId).nativeBalance
      else ((counted w₁ p).coordinator.subscriptions p.request.subId).balance := by
    rw [hself]
    exact h.balance
  obtain ⟨w', hcharge⟩ := chargePayment_returns hbalance h.withdrawable
  have hsettle : settleDelivery (commitmentOf p blockNum) onlyPremium f gasPrice w₁ =
      .ok ((), w') := by
    simp only [settleDelivery, Tx.bind_ok, Tx.view_ok]
    exact ⟨_, _, hcounted, _, _, ⟨paysNative_commitmentOf, rfl⟩, _, _, ⟨h.charged, rfl⟩, hcharge⟩
  obtain ⟨-, hcommitments, -⟩ := settleDelivery_registry hsettle
  refine ⟨w', ?_, hcommitments⟩
  unfold afterCallback
  rw [Proc.tx_bind_ok (a := ()) (write_ok.mpr rfl)]
  exact Proc.tx_returned.mpr hsettle

/-- The function hands over control to the consumer, and then settles. -/
theorem fulfillRandomWords_waits
    (h : Fulfillable H w.coordinator id p proof onlyPremium f gasPrice payment)
    (hfree : w.coordinator.config.reentrancyLock = false)
    (hopen : w.coordinator.requestCommitments id ≠ 0)
    (hrc : w.coordinator.requestCommitments id = H.commitment id (commitmentOf p blockNum)) :
    ∃ words : List Nat, words.length = p.request.numWords ∧
      fulfillRandomWords H proof (commitmentOf p blockNum) onlyPremium f w =
        .waiting (.rawFulfillRandomWords p.sender id words) (delivering w id) fun _ w₁ =>
          afterCallback (commitmentOf p blockNum) onlyPremium f gasPrice w₁ := by
  obtain ⟨randomness, hrandomness⟩ := Option.ne_none_iff_exists'.mp h.randomness
  have hid : H.requestId (H.keyHash proof.pk) proof.seed = id := h.requestId
  have hproof : getRandomnessFromProof H proof (commitmentOf p blockNum) f w =
      .ok ⟨(w.coordinator.provingKeys (H.keyHash proof.pk)).maxGas, id, randomness⟩ := by
    simp only [getRandomnessFromProof, Result.bind_ok, Result.revertIf_ok, Result.ofOption_ok,
      Result.pure_ok, not_not, hid]
    exact ⟨(), by rw [h.key]; exact Bool.noConfusion, (), hopen, (), hrc, (), h.blockHash,
      randomness, hrandomness, rfl⟩
  have hgas : (Tx.view fun _ => getValidatedGasPrice onlyPremium f.gasPrice
      (w.coordinator.provingKeys (H.keyHash proof.pk)).maxGas : CoordinatorTx Nat) w =
      .ok (gasPrice, w) := Tx.view_ok.mpr ⟨h.priced, rfl⟩
  refine ⟨(List.range p.request.numWords).map (H.randomWord randomness), by simp, ?_⟩
  -- the checks of the function in its order, up to the call of the consumer
  unfold fulfillRandomWords deliverRandomness
  refine (Proc.tx_bind_ok (a := ()) (nonReentrant_ok.mpr ⟨hfree, rfl⟩)).trans ?_
  refine (Proc.tx_bind_ok (a := ())
    (Tx.revertIf_ok.mpr ⟨Nat.not_lt.mpr h.dataLength, rfl⟩)).trans ?_
  refine (Proc.tx_bind_ok (Tx.view_ok.mpr ⟨hproof, rfl⟩)).trans ?_
  refine (Proc.tx_bind_ok hgas).trans ?_
  refine (Proc.tx_bind_ok (a := ()) (write_ok.mpr rfl)).trans ?_
  rw [Proc.bind_assoc, Proc.tx_bind_ok (a := ()) (write_ok.mpr rfl), Proc.bind_assoc,
    Proc.tx_bind_ok (a := ())
      (Tx.revertIf_ok.mpr ⟨by rw [h.callable]; exact Bool.noConfusion, rfl⟩)]
  rfl

/-- Calls made in the callback leave the delivery under way, and its request closed. -/
theorem delivery_kept {w₂ : World} {inside : List (Event (Msg this) Unit)}
    (hH : H.CollisionFree this K) (hp : Agree H this K (fun _ => True) (w, ops))
    (hfree : w.coordinator.config.reentrancyLock = false)
    (hopen : w.coordinator.requestCommitments id ≠ 0)
    (hrc : w.coordinator.requestCommitments id = H.commitment id (commitmentOf p blockNum))
    (hhashed : .commitment id (commitmentOf p blockNum) ∈ K)
    (hinside : hashedIn H ⟨delivering w id, []⟩ inside ⊆ K)
    (hrun : Run (LockedStep H this) ⟨delivering w id, []⟩ inside ⟨w₂, []⟩)
    (halive : w₂.coordinator.ownerOf p.request.subId ≠ 0) :
    0 < (w₂.coordinator.consumers p.sender p.request.subId).pendingReqCount ∧
      w₂.coordinator.requestCommitments id = 0 := by
  let taken : List Op := ops ++ [.take id p.sender p.request.subId p.request.numWords]
  have htaken : Agree H this K (fun _ => True) (delivering w id, taken) :=
    agree_taken hH hp hfree hopen hrc hhashed
  obtain ⟨⟨⟨w', ops'⟩, stack'⟩, -, ⟨hworld, hstack⟩, hsteady⟩ :=
    agree_run_from (n := ⟨(delivering w id, taken), []⟩) hH hinside hrun (fun _ _ => trivial)
      ⟨rfl, .nil⟩ ⟨htaken, since_refl _⟩
  cases hworld
  cases hstack
  have hbusy : inDelivery taken = some (p.sender, p.request.subId) :=
    VRFCoordinator.inDelivery_take
  -- nothing is requested or delivered while a delivery is under way
  have hsince : Since H this K (delivering w id, taken) (w₂, ops') := hsteady.chain
  have hsame : ops' = taken := hsince.held (by rw [hbusy]; exact nofun)
  subst hsame
  have hagree : Agree H this K (fun _ => True) (w₂, taken) := hsteady.world
  refine ⟨count_of_delivery hagree hbusy halive, ?_⟩
  obtain ⟨v, htracks, hcommitted⟩ := tracks_of_agree hagree
  refine hcommitted.closed id (Option.eq_none_iff_forall_not_mem.mpr fun p' hp' => ?_)
  refine ((htracks.pending id p').mp hp').2 ?_
  rw [VRFCoordinator.takenIds_take]
  exact List.mem_append_right _ (List.mem_singleton_self _)

/-- The delivery while its consumer has control. -/
def deliveryFrame (w : World) (id : Nat) (p : Pending) (blockNum : Nat) (onlyPremium : Bool)
    (f : Fulfilment) (gasPrice : Nat) (words : List Nat) :
    Frame CoordinatorError World Query Unit where
  start := w
  handed := delivering w id
  query := .rawFulfillRandomWords p.sender id words
  resume := fun _ => afterCallback (commitmentOf p blockNum) onlyPremium f gasPrice

/-- A request whose subscription is there can be delivered. -/
theorem deliverable_of_alive {start : CoordinatorMachine} {events : List (Event (Msg this) Unit)}
    (hH : H.CollisionFree this (hashedIn H start events))
    (hrun : Run (Step H this) start events ⟨w, []⟩)
    (hp : Agree H this (hashedIn H start events) forced (w, ops))
    (hfree : w.coordinator.config.reentrancyLock = false)
    (hcount : 0 < (w.coordinator.consumers p.sender p.request.subId).pendingReqCount)
    (hhashed : .commitment id (commitmentOf p blockNum) ∈ hashedIn H start events)
    (hrc : w.coordinator.requestCommitments id = H.commitment id (commitmentOf p blockNum)) :
    Deliverable H this start events ⟨w, []⟩ id p := by
  refine ⟨blockNum, hrc, fun sender hthis hzero proof onlyPremium f gasPrice payment h => ?_⟩
  have hopen : w.coordinator.requestCommitments id ≠ 0 := hrc.trans_ne (commitment_ne hH hhashed)
  obtain ⟨words, hwords, hwaits⟩ := fulfillRandomWords_waits h hfree hopen hrc
  let frame := deliveryFrame w id p blockNum onlyPremium f gasPrice words
  let call : Event (Msg this) Unit := .call ⟨sender, hthis, hzero,
    .fulfillRandomWords proof (commitmentOf p blockNum) onlyPremium f⟩
  have hcall : Step H this ⟨w, []⟩ call ⟨delivering w id, [frame]⟩ :=
    congrArg (fun o => some (Machine.settle w [] o)) hwaits
  refine ⟨⟨delivering w id, [frame]⟩, words, hcall, rfl, hwords, fun inside w₂ hinside => ?_⟩
  have hplain : Run (Step H this) ⟨delivering w id, []⟩ inside ⟨w₂, []⟩ :=
    hinside.mono fun _ _ _ hstep => hstep.1
  obtain ⟨hunder, hsame⟩ := hashedIn_under [frame] hplain
  refine ⟨hunder, ?_, fun payment' halive hpayable hH' => ?_⟩
  · -- what the callback did is undone
    have hpayable : Payable (delivering w id).coordinator p onlyPremium f gasPrice payment :=
      ⟨h.charged, h.balance, h.withdrawable, h.reqCount⟩
    obtain ⟨w', hresume, hcommitments⟩ := afterCallback_returns blockNum hpayable hcount
    refine ⟨⟨w', []⟩, congrArg (fun o => some (Machine.settle w [] o)) hresume, rfl, ?_⟩
    rw [hcommitments]
    exact update_self _ _ _
  · have hbefore : hashedIn H start events ⊆ hashedIn H start (events ++ call :: inside) :=
      hashedIn_before hrun
    have hafter : hashedIn H ⟨delivering w id, []⟩ inside ⊆
        hashedIn H start (events ++ call :: inside) := by
      rw [← hsame, List.append_cons]
      exact hashedIn_after (hrun.snoc hcall)
    obtain ⟨hcount', hclosed⟩ := delivery_kept hH' (agree_mono hbefore hp) hfree hopen hrc
      (hbefore hhashed) hafter hinside halive
    obtain ⟨w', hresume, hcommitments⟩ := afterCallback_returns blockNum hpayable hcount'
    refine ⟨⟨w', []⟩, congrArg (fun o => some (Machine.settle w [] o)) hresume, rfl, ?_⟩
    rw [hcommitments]
    exact hclosed

/-! ## Requests that stay open -/

/-- A function that neither returns nor hands over control. -/
theorem reverted_of_relies {o : Outcome CoordinatorError World Query Unit Unit}
    (h : o.Relies (fun _ => False) (fun _ _ => True) fun _ _ => False) :
    ∃ e, o = .reverted e := by
  cases o with
  | reverted e => exact ⟨e, rfl⟩
  | returned => exact h.elim
  | waiting => exact h.1.elim

/-- With an open request on the subscription, all that would end it reverts. -/
theorem protected_of_pending (hpending : pendingRequestExists w.coordinator subId = true) :
    Protected H this w subId := by
  rintro ⟨sender, hthis, hzero, call⟩ ⟨a, hcall | hcall | hcall⟩
  · cases hcall
    refine reverted_of_relies (Proc.relies_tx fun _ _ h => ?_)
    simp only [removeConsumer, Tx.bind_ok, onlySubOwner_ok, nonReentrant_ok, Tx.get_ok,
      Tx.revertIf_ok] at h
    obtain ⟨_, _, ⟨-, -, rfl⟩, _, _, ⟨-, rfl⟩, _, _, ⟨rfl, rfl⟩, _, _, ⟨hclear, -⟩, -⟩ := h
    exact hclear hpending
  · cases hcall
    refine reverted_of_relies (Proc.relies_tx_bind fun _ _ h => ?_)
    obtain ⟨-, -, rfl⟩ := onlySubOwner_ok.mp h
    refine Proc.relies_tx_bind fun _ _ h => ?_
    obtain ⟨-, rfl⟩ := nonReentrant_ok.mp h
    refine Proc.relies_tx_bind fun _ _ h => ?_
    obtain ⟨rfl, rfl⟩ := Tx.get_ok.mp h
    exact Proc.relies_tx_bind fun _ _ h => absurd hpending (Tx.revertIf_ok.mp h).1
  · cases hcall
    refine reverted_of_relies (Proc.relies_tx_bind fun _ _ h => ?_)
    obtain ⟨-, rfl⟩ := nonReentrant_ok.mp h
    refine Proc.relies_tx_bind fun _ _ h => ?_
    obtain ⟨rfl, rfl⟩ := Tx.get_ok.mp h
    refine Proc.relies_tx_bind fun _ _ h => ?_
    obtain ⟨-, rfl⟩ := Tx.revertIf_ok.mp h
    refine Proc.relies_tx_bind fun _ _ h => ?_
    obtain ⟨-, rfl⟩ := Tx.view_ok.mp h
    refine Proc.relies_tx_bind fun _ _ h => ?_
    obtain ⟨-, rfl⟩ := Tx.revertIf_ok.mp h
    exact Proc.relies_tx_bind fun _ _ h => absurd hpending (Tx.revertIf_ok.mp h).1

/-- A request of a subscription that is gone stays open. -/
theorem stranded_run {m' : CoordinatorMachine} {events : List (Event (Msg this) Unit)}
    (hH : H.CollisionFree this K) (hp : Agree H this K (fun _ => True) (w, ops))
    (hop : .request p.sender p.request id ∈ ops) (huntaken : id ∉ takenIds ops)
    (hdead : w.coordinator.ownerOf p.request.subId = 0) (hK : hashedIn H ⟨w, []⟩ events ⊆ K)
    (hrun : Run (LockedStep H this) ⟨w, []⟩ events m') (hidle : m'.stack = []) :
    m'.world.coordinator.ownerOf p.request.subId = 0 ∧
      ∃ v, Committed H K m'.world.coordinator v ∧ v.requests id = some p := by
  obtain ⟨⟨⟨w', ops'⟩, stack'⟩, -, hrecords, hsteady'⟩ :=
    agree_run_from (n := ⟨(w, ops), []⟩) hH hK hrun (fun _ _ => trivial) ⟨rfl, .nil⟩
      ⟨hp, since_refl _⟩
  obtain ⟨hworld, hstack⟩ := hrecords
  rw [hidle] at hstack
  cases hstack
  cases hworld
  -- no call waits at either end, so `Since` covers all that happened between
  have hsince : Since H this K (w, ops) (m'.world, ops') := hsteady'.chain
  obtain ⟨hmade, -⟩ := hp.keyed p.sender p.request id hop
  obtain ⟨hop', huntaken'⟩ := hsince.stranded p.sender p.request id hop huntaken hmade hdead
  obtain ⟨v, htracks, hcommitted⟩ := tracks_of_agree hsteady'.world
  exact ⟨hsince.buried _ hmade hdead, v, hcommitted, (htracks.pending id p).mpr ⟨hop', huntaken'⟩⟩

end LifecycleLemmas

theorem argsToBytes_inj {b b' : Bool} (h : argsToBytes b = argsToBytes b') : b = b' := by
  cases b with
  | false =>
    cases b' with
    | false => rfl
    | true => exact absurd h (by decide)
  | true =>
    cases b' with
    | false => exact absurd h (by decide)
    | true => rfl

/-- Of the commitments to the first request one is known. -/
theorem asked_of_commitment_ne {rc : RequestCommitment}
    (h : sampleKeccak.commitment firstRequest rc ≠ 0) : rc = askedCommitment 70 := by
  have hsome : (sampleCommitments.lookup (firstRequest, rc)).isSome := by
    rw [Option.isSome_iff_ne_none]
    exact fun hnone => h (congrArg (fun o => o.getD 0) hnone)
  obtain ⟨q, hq, hsame⟩ := List.lookup_isSome_iff.mp hsome
  obtain rfl | rfl := List.mem_pair.mp hq
  · exact (Prod.ext_iff.mp (eq_of_beq hsame)).2
  · have hid : firstRequest = secondRequest := (Prod.ext_iff.mp (eq_of_beq hsame)).1
    exact absurd hid (by decide)

/-- So it is open with the arguments it was made with. -/
theorem asked_of_open {K : List Preimage} {c : Coordinator} {v : VRFCoordinator}
    (hcommitted : Committed sampleKeccak K c v) (hopen : c.requestCommitments firstRequest ≠ 0) :
    ∃ p, v.requests firstRequest = some p ∧ p.request.subId = firstSub ∧
      p.request.nativePayment = true := by
  obtain ⟨p, hp⟩ := Option.ne_none_iff_exists'.mp fun hclosed => hopen (hcommitted.closed _ hclosed)
  obtain ⟨blockNum, -, hrc⟩ := hcommitted.pending _ p hp
  have hasked : commitmentOf p blockNum = askedCommitment 70 := asked_of_commitment_ne (hrc ▸ hopen)
  exact ⟨p, hp, congrArg RequestCommitment.subId hasked,
    argsToBytes_inj (congrArg RequestCommitment.extraArgs hasked)⟩

/-- The first subscription can pay for the delivery, which costs `20`. -/
def Pays (c : Coordinator) : Prop :=
  calculatePaymentAmount sampleFulfilment 2 true false c = .ok 20 ∧
    (c.subscriptions firstSub).nativeBalance = 1000 ∧ c.withdrawableNative = 0 ∧
    (c.subscriptions firstSub).reqCount = 0

instance (c : Coordinator) : Decidable (Pays c) :=
  inferInstanceAs (Decidable (_ ∧ _ ∧ _ ∧ _))

theorem payable_of_pays {c : Coordinator} {p : Pending} (h : Pays c)
    (hsub : p.request.subId = firstSub) (hnative : p.request.nativePayment = true) :
    Payable c p false sampleFulfilment 2 20 := by
  obtain ⟨hcharged, hbalance, hwithdrawable, hreqCount⟩ := h
  refine ⟨by rw [hnative]; exact hcharged, ?_, ?_, ?_⟩
  · rw [hnative, hsub, if_pos rfl, hbalance]
    decide
  · rw [hnative, if_pos rfl, hwithdrawable]
    decide
  · rw [hsub, hreqCount]
    decide

/-- In the callback of the first request, the account `5` tries to cancel its
subscription, and the owner of the coordinator takes back the proving key. -/
def callbackEvents : List (Event (Msg 2) Unit) :=
  [userCall (.cancelSubscription firstSub 5), ownerCall (.deregisterProvingKey (9, 0))]

/-- The owner of the coordinator cancels the subscription. -/
def strandedEvents : List (Event (Msg 2) Unit) :=
  askedEvents ++ [ownerCall (.ownerCancelSubscription firstSub), .answer ()]

theorem asked_collisionFree :
    sampleKeccak.CollisionFree 2 (hashedIn sampleKeccak sampleStart askedEvents) := by
  decide +kernel

theorem callback_collisionFree :
    sampleKeccak.CollisionFree 2 (hashedIn sampleKeccak sampleStart
      (askedEvents ++ userCall (sampleDelivery firstSeed 70) :: callbackEvents)) := by
  decide +kernel

theorem stranded_collisionFree :
    sampleKeccak.CollisionFree 2 (hashedIn sampleKeccak sampleStart strandedEvents) := by
  decide +kernel

end AdvFoundry.Vrf
