import AdvFoundry.Chainlink.Coordinator
import AdvFoundry.Chainlink.Vrf

/-!
# What the coordinator hashes

The ids of subscriptions and of requests are hashes, and so are the commitments to
requests. A `Preimage` is what is hashed, and `hashedIn` lists all that is hashed in
a run. Results that need hashes not to collide ask it of the hashes on this list.
-/

namespace AdvFoundry.Vrf

/-- The request with its arguments decoded. -/
def Request.decoded (req : Request) : RandomWordsRequest where
  keyHash := req.keyHash
  subId := req.subId
  requestConfirmations := req.requestConfirmations
  callbackGasLimit := req.callbackGasLimit
  numWords := req.numWords
  nativePayment := (fromBytes req.extraArgs).toOption.getD false

/-- What the coordinator commits to for this request, made in the block `blockNum`. -/
def commitmentOf (p : Pending) (blockNum : Nat) : RequestCommitment where
  blockNum := blockNum
  subId := p.request.subId
  callbackGasLimit := p.request.callbackGasLimit
  numWords := p.request.numWords
  sender := p.sender
  extraArgs := argsToBytes p.request.nativePayment

/-- The id of the request that the proof answers. -/
def Proof.requestId (H : Keccak) (proof : Proof) : Nat :=
  H.requestId (H.keyHash proof.pk) proof.seed

/-! ## Preimages -/

/-- What is hashed to the id of a subscription, to the id of a request, and to the
commitment to a request. -/
inductive Preimage
  | subId (sender : Address) (blockhash nonce : Nat)
  | requestId (keyHash : Nat) (sender : Address) (subId nonce : Nat)
  | commitment (requestId : Nat) (rc : RequestCommitment)
  deriving DecidableEq

/-- Its hash, in the coordinator at `this`. -/
def Keccak.hash (H : Keccak) (this : Address) : Preimage → Nat
  | .subId sender blockhash nonce => H.subId sender blockhash this nonce
  | .requestId keyHash sender subId nonce => computeRequestId H keyHash sender subId nonce
  | .commitment requestId rc => H.commitment requestId rc

/-- What this call hashes, with this storage, if it gets that far. -/
def Msg.preimages (H : Keccak) {this : Address} (l : Msg this) (w : World) : List Preimage :=
  match l.call with
  | .createSubscription blockhash => [.subId l.sender blockhash w.coordinator.currentSubNonce]
  | .requestRandomWords req blockNumber =>
    let nonce := (w.coordinator.consumers l.sender req.subId).nonce + 1
    [.requestId req.keyHash l.sender req.subId nonce,
      .commitment (computeRequestId H req.keyHash l.sender req.subId nonce)
        (commitmentOf ⟨l.sender, req.decoded⟩ blockNumber)]
  | .fulfillRandomWords proof rc _ _ => [.commitment (proof.requestId H) rc]
  | _ => []

/-- An event that goes on with a waiting call hashes nothing. -/
def hashedBy (H : Keccak) {this : Address} (w : World) : Event (Msg this) Unit → List Preimage
  | .call l => l.preimages H w
  | .answer _ => []
  | .fail => []

/-- What is hashed from `m` on, while these events happen. -/
def hashedIn (H : Keccak) {this : Address} :
    CoordinatorMachine → List (Event (Msg this) Unit) → List Preimage
  | _, [] => []
  | m, ev :: events =>
    hashedBy H m.world ev ++ ((m.next (Msg.exec H) ev).map fun m' => hashedIn H m' events).getD []

/-- No two of these have the same hash, and none has the hash zero. -/
def Keccak.CollisionFree (H : Keccak) (this : Address) (K : List Preimage) : Prop :=
  (∀ x ∈ K, H.hash this x ≠ 0) ∧ ∀ x ∈ K, ∀ y ∈ K, H.hash this x = H.hash this y → x = y

instance (H : Keccak) (this : Address) (K : List Preimage) : Decidable (H.CollisionFree this K) :=
  inferInstanceAs (Decidable ((∀ x ∈ K, H.hash this x ≠ 0) ∧
    ∀ x ∈ K, ∀ y ∈ K, H.hash this x = H.hash this y → x = y))

/-- Of the ids of subscriptions among these, those with different nonces differ. -/
def Keccak.FreshSubIds (H : Keccak) (this : Address) (K : List Preimage) : Prop :=
  ∀ sender blockhash nonce, .subId sender blockhash nonce ∈ K →
    ∀ sender' blockhash' nonce', .subId sender' blockhash' nonce' ∈ K →
      H.subId sender blockhash this nonce = H.subId sender' blockhash' this nonce' → nonce = nonce'

namespace PreimageLemmas

variable {H : Keccak} {this : Address} {K : List Preimage} {m m' start : CoordinatorMachine}
  {events before after : List (Event (Msg this) Unit)}

/-! ## Hashes that do not collide -/

theorem collisionFree_subIds (hH : H.CollisionFree this K) : H.FreshSubIds this K := by
  intro sender blockhash nonce hx sender' blockhash' nonce' hy h
  have hsame := hH.2 _ hx _ hy h
  exact (Preimage.subId.inj hsame).2.2

/-- A request id has one sender, one subscription and one nonce. -/
theorem collisionFree_requestId {keyHash keyHash' subId subId' nonce nonce' : Nat}
    {sender sender' : Address} (hH : H.CollisionFree this K)
    (hx : .requestId keyHash sender subId nonce ∈ K)
    (hy : .requestId keyHash' sender' subId' nonce' ∈ K)
    (h : computeRequestId H keyHash sender subId nonce =
      computeRequestId H keyHash' sender' subId' nonce') :
    sender = sender' ∧ subId = subId' ∧ nonce = nonce' := by
  have hsame := hH.2 _ hx _ hy h
  exact (Preimage.requestId.inj hsame).2

theorem collisionFree_commitment {id : Nat} {rc rc' : RequestCommitment}
    (hH : H.CollisionFree this K) (hx : .commitment id rc ∈ K) (hy : .commitment id rc' ∈ K)
    (h : H.commitment id rc = H.commitment id rc') : rc = rc' := by
  have hsame := hH.2 _ hx _ hy h
  exact (Preimage.commitment.inj hsame).2

theorem commitment_ne {id : Nat} {rc : RequestCommitment} (hH : H.CollisionFree this K)
    (hx : .commitment id rc ∈ K) : H.commitment id rc ≠ 0 := hH.1 _ hx

/-! ## What a run hashes -/

/-- One run after another. -/
theorem hashedIn_append (hrun : Run (Step H this) m before m') :
    hashedIn H m (before ++ after) = hashedIn H m before ++ hashedIn H m' after := by
  -- the last event of the first run moves over to the second
  induction hrun generalizing after with
  | nil => rfl
  | @snoc m₁ m₂ labels ev _ hstep ih =>
    have hnext : m₁.next (Msg.exec H) ev = some m₂ := hstep
    rw [List.append_assoc, ih, ih, List.singleton_append, hashedIn, hashedIn, hnext,
      List.append_assoc, List.append_assoc]
    rfl

/-- A call of a run hashes what is on the list. -/
theorem preimages_subset {l : Msg this} (hbefore : Run (Step H this) start before m) :
    l.preimages H m.world ⊆ hashedIn H start (before ++ .call l :: after) := by
  rw [hashedIn_append hbefore, hashedIn]
  exact fun x hx => List.mem_append_right _ (List.mem_append_left _ hx)

theorem hashedIn_before (hrun : Run (Step H this) m before m') :
    hashedIn H m before ⊆ hashedIn H m (before ++ after) := by
  rw [hashedIn_append hrun]
  exact List.subset_append_left _ _

theorem hashedIn_after (hrun : Run (Step H this) m before m') :
    hashedIn H m' after ⊆ hashedIn H m (before ++ after) := by
  rw [hashedIn_append hrun]
  exact List.subset_append_right _ _

/-- In a run whose hashes are in `K`, those of each call are. -/
theorem run_hashed {step : CoordinatorMachine → Event (Msg this) Unit → CoordinatorMachine → Prop}
    (hsub : ∀ m ev m', step m ev m' → Step H this m ev m') (hrun : Run step m events m')
    (hK : hashedIn H m events ⊆ K) :
    Run (fun m ev m' => step m ev m' ∧ ∀ l, ev = .call l → l.preimages H m.world ⊆ K)
      m events m' := by
  induction hrun with
  | nil => exact .nil _
  | @snoc m₁ m₂ labels ev hbefore hstep ih =>
    have hbefore' := hbefore.mono hsub
    refine .snoc (ih fun x hx => hK (hashedIn_before hbefore' hx)) ⟨hstep, ?_⟩
    rintro l rfl
    exact fun x hx => hK (preimages_subset hbefore' hx)

/-- Calls that wait below do not matter. -/
theorem hashedIn_under (base : List (Frame CoordinatorError World Query Unit))
    (hrun : Run (Step H this) m events m') :
    Run (Step H this) (m.under base) events (m'.under base) ∧
      hashedIn H (m.under base) events = hashedIn H m events := by
  induction hrun with
  | nil => exact ⟨.nil _, rfl⟩
  | @snoc m₁ m₂ labels ev hbefore hstep ih =>
    have hstep' : Step H this (m₁.under base) ev (m₂.under base) := Machine.under_step hstep
    refine ⟨.snoc ih.1 hstep', ?_⟩
    have hnext : m₁.next (Msg.exec H) ev = some m₂ := hstep
    have hnext' : (m₁.under base).next (Msg.exec H) ev = some (m₂.under base) := hstep'
    rw [hashedIn_append ih.1, hashedIn_append hbefore, ih.2, hashedIn, hashedIn, hnext, hnext']
    rfl

end PreimageLemmas

/-! ### Values of the hashes

What `keccak256` gives where the sample runs hash: in the coordinator at `2` the account
`5` creates a subscription in the block after one with the hash `70`, and another one
after `71`. On the first the consumer `6` makes two requests, in the blocks `70` and
`71`. -/

def firstSub : Nat := 0x340e52bdc02344edfc078fc55d62ac3c1d0f8daa7150412e97c3604f2b92cd24

def secondSub : Nat := 0x18e13d1ee077c8c6303887434eb2be14d60ab5f9afc02eac333a0f642d35d022

def sampleKeyHash : Nat := 0x324fdf7bfe7bd2828491073f0b7868a9a19ee3eff384c2805040be3e426447f5

def firstSeed : Nat := 0x29ef8d26d163526b9c97c118089c6fd8839c6d7bb0afa9b3ab5d876c9801b9cc

def secondSeed : Nat := 0xc52462dc58272dc09822a7008f26133a9cc74978460459cb0f127c2e73f04c5a

def firstRequest : Nat := 0x99169745ca618504a23cff64ff189d2623571db36b2e72fa56cb1767024c059c

def secondRequest : Nat := 0xf4d352fbdc2c6da971cc4e69e019132d08210569506c041166f516dd9bba15d7

/-- What is committed to for both requests, but for the block. -/
def askedCommitment (blockNum : Nat) : RequestCommitment :=
  ⟨blockNum, firstSub, 100, 2, 6, argsToBytes true⟩

def sampleSubIds : List ((Address × Nat × Address × Nat) × Nat) :=
  [((5, 70, 2, 0), firstSub), ((5, 71, 2, 1), secondSub)]

def sampleSeeds : List ((Nat × Address × Nat × Nat) × Nat) :=
  [((sampleKeyHash, 6, firstSub, 1), firstSeed), ((sampleKeyHash, 6, firstSub, 2), secondSeed)]

def sampleRequestIds : List ((Nat × Nat) × Nat) :=
  [((sampleKeyHash, firstSeed), firstRequest), ((sampleKeyHash, secondSeed), secondRequest)]

def sampleCommitments : List ((Nat × RequestCommitment) × Nat) :=
  [((firstRequest, askedCommitment 70),
      0xc1621401c1a6cbcdc6d55f699c3e018391a7b8c058fda9fa1a917e425ac04744),
    ((secondRequest, askedCommitment 71),
      0x76df3c36f26de751a43e2a18577260ac0f13a54a3e554f7b0214dbcdbd69ee3d)]

def sampleWords : List ((Nat × Nat) × Nat) :=
  [((77, 0), 0x9aeb295f3776ed2ed0cfac59c56dc7082ddda9b6fb55b3bce5672dd474eab0b0),
    ((77, 1), 0x95989d5ae5e35a1028a102cc8d314bb056651d5a52e19f1cf8b51c8e3443c0f5)]

def sampleKeccak : Keccak where
  subId sender blockhash this nonce :=
    (sampleSubIds.lookup (sender, blockhash, this, nonce)).getD 0
  keyHash pk := if pk = (9, 0) then sampleKeyHash else 0
  preSeed keyHash sender subId nonce :=
    (sampleSeeds.lookup (keyHash, sender, subId, nonce)).getD 0
  requestId keyHash preSeed := (sampleRequestIds.lookup (keyHash, preSeed)).getD 0
  commitment requestId rc := (sampleCommitments.lookup (requestId, rc)).getD 0
  randomWord randomness i := (sampleWords.lookup (randomness, i)).getD 0

end AdvFoundry.Vrf
