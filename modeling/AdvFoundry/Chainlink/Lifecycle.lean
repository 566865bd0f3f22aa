import AdvFoundry.Chainlink.Books
import AdvFoundry.Chainlink.History
import AdvFoundry.Evm.Recorder

/-!
# Requests from beginning to end

`VRFCoordinator` (in `Chainlink/Vrf.lean`) is what a consumer can tell of the
coordinator. Here the contract is shown to be one: the requests and deliveries of
each of its runs, recorded as they happen, are a run of `VRFCoordinator`, with the
same requests open in every state (`requests_delivered_once`). So each request is
delivered at most once, to the consumer who made it and with as many words.

A callback that reverts is a delivery all the same. A delivery that reverts is
none, and the request stays open.

Ids and commitments are hashes, so all this is said of runs in which no two hashes
collide.

The lock is part of the configuration, which `setConfig` writes anew with the lock
free. So the runs are those in which the configuration is not set while the lock
is taken; `config_during_callback_unlocks` is one in which it is.
-/

namespace AdvFoundry.Vrf

open Function PreimageLemmas EffectLemmas BookLemmas BackedLemmas
open VRFCoordinator (Op Tracks requestIds takenIds about inDelivery)

/-! ## The record -/

/-- The requests and deliveries so far. A delivery begins with the callback. When
the callback is refused its record is lost, and is made up for at the end. -/
def history (H : Keccak) (this : Address) : Recorder (Msg this) World Query (List Op) where
  onQuery l _ query _ ops :=
    match query, l.call with
    | .rawFulfillRandomWords consumer requestId randomWords, .fulfillRandomWords _ rc _ _ =>
      ops ++ [.take requestId consumer rc.subId randomWords.length]
    | _, _ => ops
  onReturn l start _ ops :=
    match l.call with
    | .requestRandomWords req _ =>
      ops ++ [.request l.sender req.decoded (computeRequestId H req.keyHash l.sender req.subId
        ((start.coordinator.consumers l.sender req.subId).nonce + 1))]
    | .fulfillRandomWords proof rc _ _ =>
      (if proof.requestId H ∈ takenIds ops then ops
        else ops ++ [.take (proof.requestId H) rc.sender rc.subId rc.numWords]) ++ [.finish]
    | _ => ops

/-- The calls that leave no record. -/
def Call.Silent : Call → Prop
  | requestRandomWords _ _ => False
  | fulfillRandomWords _ _ _ _ => False
  | _ => True

/-! ## The invariant -/

/-- The storage holds the commitments of the open requests, and no other. -/
structure Committed (H : Keccak) (K : List Preimage) (c : Coordinator) (v : VRFCoordinator) :
    Prop where
  closed : ∀ id, v.requests id = none → c.requestCommitments id = 0
  pending : ∀ id p, v.requests id = some p →
    ∃ blockNum, .commitment id (commitmentOf p blockNum) ∈ K ∧
      c.requestCommitments id = H.commitment id (commitmentOf p blockNum)

/-- A subscription with this id has been created. -/
def Made (H : Keccak) (this : Address) (K : List Preimage) (c : Coordinator) (subId : Nat) : Prop :=
  ∃ sender blockhash nonce, .subId sender blockhash nonce ∈ K ∧ nonce < c.currentSubNonce ∧
    subId = H.subId sender blockhash this nonce

/-- The storage goes with the operations on record. The owner cancelled no
subscription that is not `forced`. -/
structure Agree (H : Keccak) (this : Address) (K : List Preimage) (forced : Nat → Prop)
    (p : World × List Op) : Prop where
  books : Books H this K p.1.coordinator
  refines : ∃ v, Run VRFCoordinator.Step .new p.2 v ∧ Committed H K p.1.coordinator v
  locked : inDelivery p.2 ≠ none → p.1.coordinator.config.reentrancyLock = true
  keyed : ∀ sender request id, .request sender request id ∈ p.2 →
    Made H this K p.1.coordinator request.subId ∧ ∃ nonce,
      .requestId request.keyHash sender request.subId nonce ∈ K ∧
      id = computeRequestId H request.keyHash sender request.subId nonce ∧
      (p.1.coordinator.ownerOf request.subId ≠ 0 →
        nonce ≤ (p.1.coordinator.consumers sender request.subId).nonce)
  counted : ∀ a s, p.1.coordinator.ownerOf s ≠ 0 →
    (p.1.coordinator.consumers a s).pendingReqCount + (takenIds (about a s p.2)).length =
      (requestIds (about a s p.2)).length + if inDelivery p.2 = some (a, s) then 1 else 0
  listed : ∀ a s, (p.1.coordinator.consumers a s).pendingReqCount ≠ 0 →
    a ∈ p.1.coordinator.consumersOf s
  kept : ∀ sender request id, .request sender request id ∈ p.2 → id ∉ takenIds p.2 →
    ¬ forced request.subId → p.1.coordinator.ownerOf request.subId ≠ 0

/-- What calls that complete leave as it is: lock and delivery under way, and the
requests of subscriptions that are gone, which stay gone. -/
structure Since (H : Keccak) (this : Address) (K : List Preimage) (p q : World × List Op) :
    Prop where
  lock : q.1.coordinator.config.reentrancyLock = p.1.coordinator.config.reentrancyLock
  delivery : inDelivery q.2 = inDelivery p.2
  held : inDelivery p.2 ≠ none → q.2 = p.2
  subNonce : p.1.coordinator.currentSubNonce ≤ q.1.coordinator.currentSubNonce
  buried : ∀ s, Made H this K p.1.coordinator s → p.1.coordinator.ownerOf s = 0 →
    q.1.coordinator.ownerOf s = 0
  stranded : ∀ sender request id, .request sender request id ∈ p.2 → id ∉ takenIds p.2 →
    Made H this K p.1.coordinator request.subId → p.1.coordinator.ownerOf request.subId = 0 →
    .request sender request id ∈ q.2 ∧ id ∉ takenIds q.2

/-- What a function does to the part of the storage that requests are about, when
it neither makes a request nor delivers one. -/
structure Idle (H : Keccak) (this : Address) (K : List Preimage) (c c' : Coordinator) : Prop where
  commitments : c'.requestCommitments = c.requestCommitments
  subNonce : c.currentSubNonce ≤ c'.currentSubNonce
  alive : ∀ s, c'.ownerOf s ≠ 0 →
    (c.ownerOf s ≠ 0 ∧ ∀ a, (c.consumers a s).nonce ≤ (c'.consumers a s).nonce) ∨
      ∃ sender blockhash nonce, .subId sender blockhash nonce ∈ K ∧ c.currentSubNonce ≤ nonce ∧
        s = H.subId sender blockhash this nonce
  counts : ∀ a s, c'.ownerOf s ≠ 0 →
    (c'.consumers a s).pendingReqCount = (c.consumers a s).pendingReqCount
  listed : ∀ a s, (c'.consumers a s).pendingReqCount ≠ 0 → a ∈ c'.consumersOf s

namespace LifecycleLemmas

variable {H : Keccak} {K K' : List Preimage} {this : Address} {forced : Nat → Prop}
  {c c' : Coordinator} {w w' : World} {ops : List Op} {p q r : World × List Op} {subId id : Nat}

theorem made_mono (h : c.currentSubNonce ≤ c'.currentSubNonce) (hmade : Made H this K c subId) :
    Made H this K c' subId := by
  obtain ⟨sender, blockhash, nonce, hhashed, hnonce, hid⟩ := hmade
  exact ⟨sender, blockhash, nonce, hhashed, Nat.lt_of_lt_of_le hnonce h, hid⟩

theorem since_refl (p : World × List Op) : Since H this K p p where
  lock := rfl
  delivery := rfl
  held := fun _ => rfl
  subNonce := Nat.le_refl _
  buried := fun _ _ hdead => hdead
  stranded := fun _ _ _ hop huntaken _ _ => ⟨hop, huntaken⟩

theorem since_trans (p q r : World × List Op) (h : Since H this K p q) (h' : Since H this K q r) :
    Since H this K p r where
  lock := h'.lock.trans h.lock
  delivery := h'.delivery.trans h.delivery
  held := by
    intro hbusy
    have hsame := h.held hbusy
    exact (h'.held (hsame ▸ hbusy)).trans hsame
  subNonce := Nat.le_trans h.subNonce h'.subNonce
  buried := fun s hmade hdead =>
    h'.buried s (made_mono h.subNonce hmade) (h.buried s hmade hdead)
  stranded := by
    intro sender request id hop huntaken hmade hdead
    obtain ⟨hop', huntaken'⟩ := h.stranded sender request id hop huntaken hmade hdead
    exact h'.stranded sender request id hop' huntaken' (made_mono h.subNonce hmade)
      (h.buried _ hmade hdead)

/-! ## The open requests -/

theorem tracks_of_agree (hp : Agree H this K forced p) :
    ∃ v, Tracks p.2 v ∧ Committed H K p.1.coordinator v := by
  obtain ⟨v, hrun, hcommitted⟩ := hp.refines
  exact ⟨v, VRFCoordinator.tracks_run hrun, hcommitted⟩

/-- No delivery is under way when the lock is free. -/
theorem not_inDelivery (hp : Agree H this K forced (w, ops))
    (hfree : w.coordinator.config.reentrancyLock = false) : inDelivery ops = none := by
  by_contra hbusy
  exact Bool.false_ne_true (hfree.symm.trans (hp.locked hbusy))

/-- A subscription that is gone has no consumers, and none of them waits. -/
theorem count_of_dead (hp : Agree H this K forced p) (hdead : p.1.coordinator.ownerOf subId = 0)
    (a : Address) : (p.1.coordinator.consumers a subId).pendingReqCount = 0 := by
  by_contra hcount
  have hlisted := hp.listed a subId hcount
  have hnone := (hp.books.dead subId fun hmem => (hp.books.owned subId).mp hmem hdead).2.2
  rw [hnone] at hlisted
  cases hlisted

/-- An open request on a subscription that is there is counted. -/
theorem count_of_open {sender : Address} {request : RandomWordsRequest}
    (hp : Agree H this K forced p)
    (hop : .request sender request id ∈ p.2) (huntaken : id ∉ takenIds p.2)
    (halive : p.1.coordinator.ownerOf request.subId ≠ 0) :
    0 < (p.1.coordinator.consumers sender request.subId).pendingReqCount := by
  obtain ⟨v, htracks, -⟩ := tracks_of_agree hp
  have hfewer := htracks.taken_lt_requested hop huntaken
  have hcounted := hp.counted sender request.subId halive
  omega

/-- So is the request whose delivery is under way. -/
theorem count_of_delivery {sender : Address} (hp : Agree H this K forced p)
    (hbusy : inDelivery p.2 = some (sender, subId)) (halive : p.1.coordinator.ownerOf subId ≠ 0) :
    0 < (p.1.coordinator.consumers sender subId).pendingReqCount := by
  obtain ⟨v, htracks, -⟩ := tracks_of_agree hp
  have hfewer : (takenIds (about sender subId p.2)).length ≤
      (requestIds (about sender subId p.2)).length := htracks.taken_le_requested
  have hcounted := hp.counted sender subId halive
  rw [if_pos hbusy] at hcounted
  omega

/-- With an open request nothing that asks for no open requests goes through. -/
theorem pendingRequestExists_of_open {sender : Address} {request : RandomWordsRequest}
    (hp : Agree H this K forced p) (hop : .request sender request id ∈ p.2)
    (huntaken : id ∉ takenIds p.2) (halive : p.1.coordinator.ownerOf request.subId ≠ 0) :
    pendingRequestExists p.1.coordinator request.subId = true := by
  have hcount := count_of_open hp hop huntaken halive
  exact List.any_eq_true.mpr
    ⟨sender, hp.listed sender request.subId hcount.ne', decide_eq_true hcount⟩

/-! ## Writes that are not about requests -/

/-- The id of a subscription created since is that of none before. -/
theorem not_made_of_new {sender : Address} {blockhash nonce : Nat} (hH : H.FreshSubIds this K)
    (hhashed : .subId sender blockhash nonce ∈ K) (hnew : c.currentSubNonce ≤ nonce) :
    ¬ Made H this K c (H.subId sender blockhash this nonce) := by
  rintro ⟨_, _, n, hmade, hn, hid⟩
  have hsame := hH _ _ _ hhashed _ _ _ hmade hid
  omega

/-- A subscription created since is not in the history. -/
theorem counted_new {sender : Address} {blockhash nonce : Nat} (hH : H.FreshSubIds this K)
    (hp : Agree H this K forced p) (hhashed : .subId sender blockhash nonce ∈ K)
    (hnew : p.1.coordinator.currentSubNonce ≤ nonce) (a : Address) :
    (p.1.coordinator.consumers a (H.subId sender blockhash this nonce)).pendingReqCount +
        (takenIds (about a (H.subId sender blockhash this nonce) p.2)).length =
      (requestIds (about a (H.subId sender blockhash this nonce) p.2)).length +
        if inDelivery p.2 = some (a, H.subId sender blockhash this nonce) then 1 else 0 := by
  have hunmade : ¬ Made H this K p.1.coordinator (H.subId sender blockhash this nonce) :=
    not_made_of_new hH hhashed hnew
  have hdead : p.1.coordinator.ownerOf (H.subId sender blockhash this nonce) = 0 := by
    by_contra halive
    exact hunmade (hp.books.created _ ((hp.books.owned _).mpr halive))
  obtain ⟨v, htracks, -⟩ := tracks_of_agree hp
  obtain ⟨hrequested, htaken, hbusy⟩ := htracks.about_of_unasked a
    (H.subId sender blockhash this nonce) fun a' request id hop hsub =>
      hunmade (hsub ▸ (hp.keyed a' request id hop).1)
  rw [hrequested, htaken, if_neg hbusy, count_of_dead hp hdead a]
  rfl

theorem agree_idle (hH : H.FreshSubIds this K) (hp : Agree H this K forced (w, ops))
    (hbooks : Books H this K w'.coordinator) (hidle : Idle H this K w.coordinator w'.coordinator)
    (hlocked : inDelivery ops ≠ none → w'.coordinator.config.reentrancyLock = true)
    (hkept : ∀ sender request id, .request sender request id ∈ ops → id ∉ takenIds ops →
      ¬ forced request.subId → w'.coordinator.ownerOf request.subId ≠ 0) :
    Agree H this K forced (w', ops) where
  books := hbooks
  refines := by
    obtain ⟨v, hrun, hclosed, hpending⟩ := hp.refines
    refine ⟨v, hrun, fun id h => ?_, fun id p h => ?_⟩
    · rw [hidle.commitments]
      exact hclosed id h
    · rw [hidle.commitments]
      exact hpending id p h
  locked := hlocked
  keyed := by
    intro sender request id hop
    obtain ⟨hmade, nonce, hhashed, hid, hnonce⟩ := hp.keyed sender request id hop
    refine ⟨made_mono hidle.subNonce hmade, nonce, hhashed, hid, fun halive => ?_⟩
    rcases hidle.alive _ halive with ⟨hold, hle⟩ | ⟨_, _, n, hhashed', hn, hnew⟩
    · exact Nat.le_trans (hnonce hold) (hle sender)
    · rw [hnew] at hmade
      exact absurd hmade (not_made_of_new hH hhashed' hn)
  counted := by
    intro a s halive
    rw [hidle.counts a s halive]
    rcases hidle.alive s halive with ⟨hold, -⟩ | ⟨sender, blockhash, nonce, hhashed, hn, rfl⟩
    · exact hp.counted a s hold
    · exact counted_new hH hp hhashed hn a
  listed := hidle.listed
  kept := hkept

/-- What is gone stays gone. -/
theorem buried_idle (hH : H.FreshSubIds this K) (hidle : Idle H this K c c')
    (hmade : Made H this K c subId) (hdead : c.ownerOf subId = 0) : c'.ownerOf subId = 0 := by
  by_contra halive
  rcases hidle.alive subId halive with ⟨hold, -⟩ | ⟨_, _, _, hhashed, hn, hnew⟩
  · exact hold hdead
  · rw [hnew] at hmade
    exact absurd hmade (not_made_of_new hH hhashed hn)

theorem since_idle (hH : H.FreshSubIds this K) (hidle : Idle H this K w.coordinator w'.coordinator)
    (hlock : w'.coordinator.config.reentrancyLock = w.coordinator.config.reentrancyLock) :
    Since H this K (w, ops) (w', ops) where
  lock := hlock
  delivery := rfl
  held := fun _ => rfl
  subNonce := hidle.subNonce
  buried := fun _ => buried_idle hH hidle
  stranded := fun _ _ _ hop huntaken _ _ => ⟨hop, huntaken⟩

theorem idle_same (hp : Agree H this K forced (w, ops))
    (hcommitments : c'.requestCommitments = w.coordinator.requestCommitments)
    (hnonce : c'.currentSubNonce = w.coordinator.currentSubNonce)
    (hconsumers : c'.consumers = w.coordinator.consumers)
    (hconfigs : c'.subscriptionConfigs = w.coordinator.subscriptionConfigs) :
    Idle H this K w.coordinator c' where
  commitments := hcommitments
  subNonce := hnonce.ge
  alive := by
    intro s halive
    unfold Coordinator.ownerOf at halive ⊢
    rw [hconfigs] at halive
    exact .inl ⟨halive, fun a => by rw [hconsumers]⟩
  counts := fun a s _ => by rw [hconsumers]
  listed := by
    intro a s
    unfold Coordinator.consumersOf
    rw [hconsumers, hconfigs]
    exact hp.listed a s

theorem idle_created {sender : Address} {blockhash : Nat} (hH : H.FreshSubIds this K)
    (hp : Agree H this K forced (w, ops))
    (hhashed : .subId sender blockhash w.coordinator.currentSubNonce ∈ K) :
    Idle H this K w.coordinator { w.coordinator with
      currentSubNonce := w.coordinator.currentSubNonce + 1
      subscriptions := update w.coordinator.subscriptions
        (H.subId sender blockhash this w.coordinator.currentSubNonce) .zero
      subscriptionConfigs := update w.coordinator.subscriptionConfigs
        (H.subId sender blockhash this w.coordinator.currentSubNonce) ⟨sender, 0, []⟩
      subIds := w.coordinator.subIds.add
        (H.subId sender blockhash this w.coordinator.currentSubNonce) } := by
  have hunused : H.subId sender blockhash this w.coordinator.currentSubNonce ∉
      w.coordinator.subIds.values := fresh_notMem hH hp.books hhashed
  have hold (s : Nat) (hs : s ≠ H.subId sender blockhash this w.coordinator.currentSubNonce) :
      update w.coordinator.subscriptionConfigs
        (H.subId sender blockhash this w.coordinator.currentSubNonce) ⟨sender, 0, []⟩ s =
      w.coordinator.subscriptionConfigs s := update_of_ne hs _ _
  refine ⟨rfl, Nat.le_succ _, fun s halive => ?_, fun _ _ _ => rfl, fun a s hcount => ?_⟩
  · by_cases hs : s = H.subId sender blockhash this w.coordinator.currentSubNonce
    · exact .inr ⟨sender, blockhash, _, hhashed, Nat.le_refl _, hs⟩
    · change (update w.coordinator.subscriptionConfigs _ _ s).owner ≠ 0 at halive
      rw [hold s hs] at halive
      exact .inl ⟨halive, fun _ => Nat.le_refl _⟩
  · by_cases hs : s = H.subId sender blockhash this w.coordinator.currentSubNonce
    · have hdead : w.coordinator.ownerOf s = 0 := by
        by_contra halive
        exact hunused (hs ▸ (hp.books.owned s).mpr halive)
      exact absurd (count_of_dead hp hdead a) hcount
    · show a ∈ (update w.coordinator.subscriptionConfigs _ _ s).consumers
      rw [hold s hs]
      exact hp.listed a s hcount

/-- Other fields of the config of a subscription than its consumers. -/
theorem idle_owned {owner requestedOwner : Address} (hp : Agree H this K forced (w, ops))
    (halive : w.coordinator.ownerOf subId ≠ 0) :
    Idle H this K w.coordinator (w.coordinator.setSubscriptionConfig subId
      { w.coordinator.subscriptionConfigs subId with
        owner := owner
        requestedOwner := requestedOwner }) := by
  refine ⟨rfl, Nat.le_refl _, fun s hs => .inl ⟨?_, fun _ => Nat.le_refl _⟩, fun _ _ _ => rfl,
    fun a s hcount => ?_⟩
  · by_cases hsame : s = subId
    · exact hsame ▸ halive
    · change (update w.coordinator.subscriptionConfigs subId _ s).owner ≠ 0 at hs
      rw [update_of_ne hsame] at hs
      exact hs
  · have hconsumers : (fun s => (update w.coordinator.subscriptionConfigs subId
        { w.coordinator.subscriptionConfigs subId with
          owner := owner, requestedOwner := requestedOwner } s).consumers) =
        w.coordinator.consumersOf := update_field_same rfl
    show a ∈ (update w.coordinator.subscriptionConfigs subId _ s).consumers
    rw [congrFun hconsumers s]
    exact hp.listed a s hcount

/-- A consumer is added or taken off, and does not wait if it is taken off. -/
theorem idle_consumers {consumer : Address} {active : Bool} {list : List Address}
    (hp : Agree H this K forced (w, ops))
    (hothers : ∀ a, a ≠ consumer → a ∈ w.coordinator.consumersOf subId → a ∈ list)
    (hself : (w.coordinator.consumers consumer subId).pendingReqCount ≠ 0 → consumer ∈ list) :
    Idle H this K w.coordinator ((w.coordinator.setConsumer consumer subId
      { w.coordinator.consumers consumer subId with active := active }).setSubscriptionConfig subId
      { w.coordinator.subscriptionConfigs subId with consumers := list }) := by
  have howner : (fun s => (update w.coordinator.subscriptionConfigs subId
      { w.coordinator.subscriptionConfigs subId with consumers := list } s).owner) =
      w.coordinator.ownerOf := update_field_same rfl
  have hnonce (a : Address) (s : Nat) : ((w.coordinator.setConsumer consumer subId
      { w.coordinator.consumers consumer subId with active := active }).consumers a s).nonce =
      (w.coordinator.consumers a s).nonce := setConsumer_field ConsumerConfig.nonce (by rfl) a s
  have hsame (a : Address) (s : Nat) : ((w.coordinator.setConsumer consumer subId
      { w.coordinator.consumers consumer subId with active := active }).consumers a s
      ).pendingReqCount = (w.coordinator.consumers a s).pendingReqCount :=
    setConsumer_field ConsumerConfig.pendingReqCount (by rfl) a s
  refine ⟨rfl, Nat.le_refl _, fun s hs => .inl ⟨?_, fun a => (hnonce a s).ge⟩,
    fun a s _ => hsame a s, fun a s hcount => ?_⟩
  · change (update w.coordinator.subscriptionConfigs subId _ s).owner ≠ 0 at hs
    rw [congrFun howner s] at hs
    exact hs
  · have hcount' : (w.coordinator.consumers a s).pendingReqCount ≠ 0 :=
      (hsame a s).symm.trans_ne hcount
    have hlisted := hp.listed a s hcount'
    show a ∈ (update w.coordinator.subscriptionConfigs subId _ s).consumers
    by_cases hs : s = subId
    · subst hs
      rw [update_self]
      by_cases ha : a = consumer
      · subst ha
        exact hself hcount'
      · exact hothers a ha hlisted
    · rw [update_of_ne hs]
      exact hlisted

/-- The plain functions are idle, and no subscription goes away in them. -/
theorem idle_change (hH : H.FreshSubIds this K) (hp : Agree H this K forced (w, ops))
    (h : Change H this K w w') : Idle H this K w.coordinator w'.coordinator ∧
      w'.coordinator.config.reentrancyLock = w.coordinator.config.reentrancyLock ∧
      ∀ s, w.coordinator.ownerOf s ≠ 0 → w'.coordinator.ownerOf s ≠ 0 := by
  cases h with
  | same | admin | link | withdrawn | linkFunded | nativeFunded | received =>
    exact ⟨idle_same hp rfl rfl rfl rfl, rfl, fun _ h => h⟩
  | created sender blockhash hsender hhashed =>
    refine ⟨idle_created hH hp hhashed, rfl, fun s halive => ?_⟩
    show (update w.coordinator.subscriptionConfigs _ _ s).owner ≠ 0
    rw [update_apply]
    split
    · exact hsender
    · exact halive
  | owned subId owner requestedOwner howner halive =>
    refine ⟨idle_owned hp halive, rfl, fun s hs => ?_⟩
    show (update w.coordinator.subscriptionConfigs subId _ s).owner ≠ 0
    rw [update_apply]
    split
    · exact howner
    · exact hs
  | consumerAdded subId consumer halive hnew hroom =>
    refine ⟨idle_consumers hp (fun a _ h => List.mem_append_left _ h) (fun _ => ?_), rfl,
      fun s hs => ?_⟩
    · exact List.mem_append_right _ (List.mem_singleton_self _)
    · show (update w.coordinator.subscriptionConfigs subId _ s).owner ≠ 0
      rw [update_apply]
      split
      · exact halive
      · exact hs
  | consumerRemoved subId consumer halive hactive hpending =>
    have hnodup := hp.books.nodup subId
    have hlisted : consumer ∈ w.coordinator.consumersOf subId :=
      (hp.books.consumers subId consumer).mpr hactive
    have hzero : (w.coordinator.consumers consumer subId).pendingReqCount = 0 := by
      by_contra hcount
      have hnone := List.any_eq_false.mp hpending consumer hlisted
      exact hnone (decide_eq_true (Nat.pos_of_ne_zero hcount))
    have hidle : Idle H this K w.coordinator ((w.coordinator.setConsumer consumer subId
        { w.coordinator.consumers consumer subId with active := false }).setSubscriptionConfig subId
        { w.coordinator.subscriptionConfigs subId with
          consumers := swapRemove (w.coordinator.consumersOf subId) consumer }) :=
      idle_consumers hp (fun a ha h => (mem_swapRemove hnodup).mpr ⟨h, ha⟩)
        fun hcount => absurd hzero hcount
    refine ⟨hidle, rfl, fun s hs => ?_⟩
    show (update w.coordinator.subscriptionConfigs subId _ s).owner ≠ 0
    rw [update_apply]
    split
    · exact halive
    · exact hs

/-- A subscription goes away. -/
theorem idle_deleted (hp : Agree H this K forced (w, ops)) :
    Idle H this K w.coordinator (deleted w subId).coordinator := by
  have howner : (deleted w subId).coordinator.ownerOf = update w.coordinator.ownerOf subId 0 :=
    comp_update SubscriptionConfig.owner _ _ _
  have hconsumers : (deleted w subId).coordinator.consumersOf =
      update w.coordinator.consumersOf subId [] := comp_update SubscriptionConfig.consumers _ _ _
  have hconfig (a : Address) (s : Nat) : (deleted w subId).coordinator.consumers a s =
      if s = subId ∧ a ∈ w.coordinator.consumersOf subId then .zero
      else w.coordinator.consumers a s := deleteConsumers_apply
  have hother (s : Nat) (halive : (deleted w subId).coordinator.ownerOf s ≠ 0) : s ≠ subId := by
    rintro rfl
    rw [howner, update_self] at halive
    exact halive rfl
  refine ⟨rfl, Nat.le_refl _, fun s halive => .inl ⟨?_, fun a => ?_⟩, fun a s halive => ?_,
    fun a s hcount => ?_⟩
  · have hs := hother s halive
    rw [howner, update_of_ne hs] at halive
    exact halive
  · rw [hconfig, if_neg fun h => hother s halive h.1]
  · rw [hconfig, if_neg fun h => hother s halive h.1]
  · rw [hconfig] at hcount
    split at hcount
    · exact absurd rfl hcount
    · next hnot =>
      have hlisted := hp.listed a s hcount
      have hs : s ≠ subId := fun hs => hnot ⟨hs, hs ▸ hlisted⟩
      rw [hconsumers, update_of_ne hs]
      exact hlisted

/-! ## The functions that leave no record -/

/-- From `start` on, with these operations on record, storage and record go
together. -/
abbrev Follows (H : Keccak) {this : Address} (K : List Preimage) (forced : Nat → Prop)
    (l : Msg this) (start : World × List Op)
    (o : Outcome CoordinatorError World Query Unit Unit) (ops : List Op) : Prop :=
  (o.recorded (history H this) l start.1 ops).Relies (Agree H this K forced) (Since H this K)
    fun _ q => Agree H this K forced q ∧ Since H this K start q

variable {l : Msg this} {start : World × List Op} {u : Unit}

theorem onReturn_silent (hsilent : l.call.Silent) (w w' : World) (ops : List Op) :
    (history H this).onReturn l w w' ops = ops := by
  obtain ⟨sender, hthis, hzero, call⟩ := l
  cases call with
  | requestRandomWords | fulfillRandomWords => exact hsilent.elim
  | _ => rfl

theorem follows_tx {x : CoordinatorTx Unit} (hsilent : l.call.Silent)
    (hok : ∀ w', x w = .ok ((), w') →
      Agree H this K forced (w', ops) ∧ Since H this K start (w', ops)) :
    Follows H K forced l start ((Proc.tx x : CoordinatorProc Unit) w) ops := by
  refine Outcome.relies_recorded_return fun w' h => ?_
  rw [onReturn_silent hsilent]
  exact hok w' h

/-- A function that does nothing more. -/
theorem follows_pure (hsilent : l.call.Silent) (hp : Agree H this K forced (w, ops))
    (hstart : Since H this K start (w, ops)) :
    Follows H K forced l start ((pure () : CoordinatorProc Unit) w) ops := by
  show Agree H this K forced (w, (history H this).onReturn l start.1 w ops) ∧
    Since H this K start (w, (history H this).onReturn l start.1 w ops)
  rw [onReturn_silent hsilent]
  exact ⟨hp, hstart⟩

/-- The invariant looks at the coordinator only. -/
theorem agree_world (hp : Agree H this K forced (w, ops)) (h : w'.coordinator = w.coordinator) :
    Agree H this K forced (w', ops) := by
  obtain ⟨c, balance, tokens⟩ := w
  obtain ⟨c', balance', tokens'⟩ := w'
  cases h
  exact ⟨hp.books, hp.refines, hp.locked, hp.keyed, hp.counted, hp.listed, hp.kept⟩

theorem since_world (hstart : Since H this K start (w, ops)) (h : w'.coordinator = w.coordinator) :
    Since H this K start (w', ops) := by
  obtain ⟨c, balance, tokens⟩ := w
  obtain ⟨c', balance', tokens'⟩ := w'
  cases h
  exact ⟨hstart.lock, hstart.delivery, hstart.held, hstart.subNonce, hstart.buried, hstart.stranded⟩

theorem since_from_world (h : Since H this K (w', ops) q) (hsame : w'.coordinator = w.coordinator) :
    Since H this K (w, ops) q := by
  obtain ⟨c, balance, tokens⟩ := w
  obtain ⟨c', balance', tokens'⟩ := w'
  cases hsame
  exact ⟨h.lock, h.delivery, h.held, h.subNonce, h.buried, h.stranded⟩

/-- A payment at the end, which has to go through. -/
theorem follows_pay {dst : Address} {amount : Nat} {e : CoordinatorError} (hsilent : l.call.Silent)
    (hp : Agree H this K forced (w, ops)) (hstart : Since H this K start (w, ops)) :
    Follows H K forced l start ((do
      let sent ← sendNative dst amount
      .tx (Tx.revertIf (sent = false) e) : CoordinatorProc Unit) w) ops := by
  unfold sendNative
  rw [Proc.bind_assoc]
  refine Outcome.relies_recorded_tx fun _ w₁ h => ?_
  obtain ⟨rfl, rfl⟩ := Tx.get_ok.mp h
  split
  · trivial
  · rw [Proc.bind_assoc]
    refine Outcome.relies_recorded_tx fun _ w₂ h => ?_
    rw [Tx.modify_ok.mp h, Proc.bind_assoc]
    refine Outcome.relies_recorded_call (agree_world hp rfl) (fun u w₃ ops' hp' hsince => ?_)
      fun _ _ _ _ => trivial
    have hhanded : Since H this K start ({ w₁ with balance := w₁.balance - amount }, ops) :=
      since_world hstart rfl
    refine follows_tx (x := Tx.revertIf (true = false) e) hsilent fun w' h => ?_
    obtain ⟨-, rfl⟩ := Tx.revertIf_ok.mp h
    exact ⟨hp', since_trans _ _ _ hhanded hsince⟩

/-- A step without requests, in which no subscription with an open request goes
away. -/
theorem step_idle (hH : H.FreshSubIds this K) (hp : Agree H this K forced (w, ops))
    (hbooks : Books H this K w'.coordinator) (hidle : Idle H this K w.coordinator w'.coordinator)
    (hlock : w'.coordinator.config.reentrancyLock = w.coordinator.config.reentrancyLock)
    (hkept : ∀ sender request id, .request sender request id ∈ ops → id ∉ takenIds ops →
      ¬ forced request.subId → w'.coordinator.ownerOf request.subId ≠ 0) :
    Agree H this K forced (w', ops) ∧ Since H this K (w, ops) (w', ops) :=
  ⟨agree_idle hH hp hbooks hidle (fun hbusy => hlock.trans (hp.locked hbusy)) hkept,
    since_idle hH hidle hlock⟩

theorem follows_change {x : CoordinatorTx Unit} (hH : H.FreshSubIds this K)
    (hsilent : l.call.Silent) (hp : Agree H this K forced (w, ops))
    (hchange : ∀ w', x w = .ok ((), w') → Change H this K w w') :
    Follows H K forced l (w, ops) ((Proc.tx x : CoordinatorProc Unit) w) ops := by
  refine follows_tx hsilent fun w' h => ?_
  obtain ⟨hidle, hlock, halive⟩ := idle_change hH hp (hchange w' h)
  exact step_idle hH hp (books_change hH hp.books (hchange w' h)) hidle hlock
    fun sender request id hop huntaken hunforced =>
      halive _ (hp.kept sender request id hop huntaken hunforced)

theorem follows_setConfig {sender : Address} {config : Config} {fallback : Int}
    (hH : H.FreshSubIds this K) (hsilent : l.call.Silent) (hp : Agree H this K forced (w, ops))
    (hfree : w.coordinator.config.reentrancyLock = false) :
    Follows H K forced l (w, ops)
      ((Proc.tx (setConfig sender config fallback) : CoordinatorProc Unit) w) ops := by
  refine follows_tx hsilent fun w' h => ?_
  rw [setConfig_ok h]
  exact step_idle hH hp (books_same hp.books {}) (idle_same hp rfl rfl rfl rfl) hfree.symm hp.kept

theorem follows_recoverFunds {sender dst : Address} (hsilent : l.call.Silent)
    (hp : Agree H this K forced (w, ops)) :
    Follows H K forced l (w, ops)
      ((Proc.tx (recoverFunds this sender dst) : CoordinatorProc Unit) w) ops := by
  refine follows_tx hsilent fun w' h => ?_
  obtain ⟨-, -, rfl | ⟨amount, -, rfl⟩⟩ := recoverFunds_ok h
  · exact ⟨hp, since_refl _⟩
  · exact ⟨agree_world hp rfl, since_world (since_refl _) rfl⟩

theorem follows_recoverNativeFunds {sender dst : Address} (hsilent : l.call.Silent)
    (hp : Agree H this K forced (w, ops)) :
    Follows H K forced l (w, ops) (recoverNativeFunds sender dst w) ops := by
  unfold recoverNativeFunds
  refine Outcome.relies_recorded_tx fun _ _ h => ?_
  obtain ⟨-, rfl⟩ := onlyOwner_ok.mp h
  refine Outcome.relies_recorded_tx fun _ _ h => ?_
  obtain ⟨rfl, rfl⟩ := Tx.get_ok.mp h
  refine Outcome.relies_recorded_tx fun _ w₁ h => ?_
  obtain ⟨-, rfl⟩ := Tx.revertIf_ok.mp h
  split
  · exact follows_pay hsilent hp (since_refl _)
  · exact follows_pure hsilent hp (since_refl _)

theorem follows_withdrawNative {sender recipient : Address} (hH : H.FreshSubIds this K)
    (hsilent : l.call.Silent) (hp : Agree H this K forced (w, ops)) :
    Follows H K forced l (w, ops) (withdrawNative sender recipient w) ops := by
  unfold withdrawNative
  refine Outcome.relies_recorded_tx fun _ _ h => ?_
  obtain ⟨-, rfl⟩ := nonReentrant_ok.mp h
  refine Outcome.relies_recorded_tx fun _ _ h => ?_
  obtain ⟨-, rfl⟩ := onlyOwner_ok.mp h
  refine Outcome.relies_recorded_tx fun _ _ h => ?_
  obtain ⟨rfl, rfl⟩ := Tx.get_ok.mp h
  refine Outcome.relies_recorded_tx fun _ _ h => ?_
  obtain ⟨-, rfl⟩ := Tx.revertIf_ok.mp h
  refine Outcome.relies_recorded_tx fun _ w₁ h => ?_
  simp only [Tx.view_ok, subU_ok] at h
  obtain ⟨⟨-, rfl⟩, rfl⟩ := h
  refine Outcome.relies_recorded_tx fun _ w₂ h => ?_
  rw [write_ok.mp h]
  obtain ⟨hagree, hsince⟩ : Agree H this K forced (w₁.setCoordinator { w₁.coordinator with
      withdrawableNative := 0
      totalNativeBalance := w₁.coordinator.totalNativeBalance - w₁.coordinator.withdrawableNative },
      ops) ∧ Since H this K (w₁, ops) (w₁.setCoordinator { w₁.coordinator with
      withdrawableNative := 0
      totalNativeBalance := w₁.coordinator.totalNativeBalance - w₁.coordinator.withdrawableNative },
      ops) :=
    step_idle hH hp (books_withdrawnNative hp.books) (idle_same hp rfl rfl rfl rfl) rfl hp.kept
  exact follows_pay hsilent hagree hsince

/-! ### Subscriptions that go away -/

/-- A subscription goes away, on which nothing was open unless the owner forced it. -/
theorem step_deleted (hH : H.FreshSubIds this K) (hp : Agree H this K forced (w, ops))
    (halive : w.coordinator.ownerOf subId ≠ 0)
    (hclear : ¬ forced subId → pendingRequestExists w.coordinator subId = false) :
    Agree H this K forced (deleted w subId, ops) ∧
      Since H this K (w, ops) (deleted w subId, ops) := by
  refine step_idle hH hp (books_deleted hp.books halive) (idle_deleted hp) rfl
    fun sender request id hop huntaken hunforced => ?_
  have hthere : w.coordinator.ownerOf request.subId ≠ 0 :=
    hp.kept sender request id hop huntaken hunforced
  have hother : request.subId ≠ subId := by
    rintro rfl
    have hexists := pendingRequestExists_of_open hp hop huntaken hthere
    exact Bool.false_ne_true ((hclear hunforced).symm.trans hexists)
  have howner : (deleted w subId).coordinator.ownerOf = update w.coordinator.ownerOf subId 0 :=
    comp_update SubscriptionConfig.owner _ _ _
  rw [howner, update_of_ne hother]
  exact hthere

theorem follows_cancelSubscriptionHelper {dst : Address} (hH : H.FreshSubIds this K)
    (hsilent : l.call.Silent) (hp : Agree H this K forced (w, ops))
    (halive : w.coordinator.ownerOf subId ≠ 0)
    (hclear : ¬ forced subId → pendingRequestExists w.coordinator subId = false) :
    Follows H K forced l (w, ops) (cancelSubscriptionHelper this subId dst w) ops := by
  unfold cancelSubscriptionHelper
  refine Outcome.relies_recorded_tx fun balances w₁ h₁ => ?_
  obtain ⟨-, -, rfl, rfl⟩ := deleteSubscription_ok.mp h₁
  obtain ⟨hagree, hsince⟩ := step_deleted hH hp halive hclear
  refine Outcome.relies_recorded_tx fun _ w₂ h₂ => ?_
  obtain ⟨hcoordinator, -⟩ := payLink_same h₂
  exact follows_pay hsilent (agree_world hagree hcoordinator) (since_world hsince hcoordinator)

theorem follows_ownerCancelSubscription {sender : Address} (hH : H.FreshSubIds this K)
    (hsilent : l.call.Silent) (hp : Agree H this K forced (w, ops)) (hforced : forced subId) :
    Follows H K forced l (w, ops) (ownerCancelSubscription this sender subId w) ops := by
  unfold ownerCancelSubscription
  refine Outcome.relies_recorded_tx fun _ _ h => ?_
  obtain ⟨-, rfl⟩ := onlyOwner_ok.mp h
  refine Outcome.relies_recorded_tx fun _ _ h => ?_
  obtain ⟨rfl, rfl⟩ := Tx.get_ok.mp h
  refine Outcome.relies_recorded_tx fun _ _ h => ?_
  obtain ⟨halive, rfl⟩ := Tx.revertIf_ok.mp h
  exact follows_cancelSubscriptionHelper hH hsilent hp halive fun hunforced =>
    absurd hforced hunforced

theorem follows_cancelSubscription {sender dst : Address} (hH : H.FreshSubIds this K)
    (hsilent : l.call.Silent) (hp : Agree H this K forced (w, ops)) :
    Follows H K forced l (w, ops) (cancelSubscription this sender subId dst w) ops := by
  unfold cancelSubscription
  refine Outcome.relies_recorded_tx fun _ _ h => ?_
  obtain ⟨halive, -, rfl⟩ := onlySubOwner_ok.mp h
  refine Outcome.relies_recorded_tx fun _ _ h => ?_
  obtain ⟨-, rfl⟩ := nonReentrant_ok.mp h
  refine Outcome.relies_recorded_tx fun _ _ h => ?_
  obtain ⟨rfl, rfl⟩ := Tx.get_ok.mp h
  refine Outcome.relies_recorded_tx fun _ _ h => ?_
  obtain ⟨hclear, rfl⟩ := Tx.revertIf_ok.mp h
  exact follows_cancelSubscriptionHelper hH hsilent hp halive fun _ => Bool.eq_false_iff.mpr hclear

/-! ### A migration -/

/-- The lock alone, which is taken if a delivery is under way. -/
theorem agree_setLock {b : Bool} (hp : Agree H this K forced (w, ops))
    (hbusy : inDelivery ops ≠ none → b = true) :
    Agree H this K forced (w.setCoordinator (w.coordinator.setLock b), ops) where
  books := books_same hp.books {}
  refines := by
    obtain ⟨v, hrun, hclosed, hpending⟩ := hp.refines
    exact ⟨v, hrun, hclosed, hpending⟩
  locked := hbusy
  keyed := hp.keyed
  counted := hp.counted
  listed := hp.listed
  kept := hp.kept

theorem since_setLock (b : Bool) (h : Since H this K p q) :
    Since H this K (p.1.setCoordinator (p.1.coordinator.setLock b), p.2)
      (q.1.setCoordinator (q.1.coordinator.setLock b), q.2) where
  lock := rfl
  delivery := h.delivery
  held := h.held
  subNonce := h.subNonce
  buried := h.buried
  stranded := h.stranded

/-- To free a lock that is free changes nothing. -/
theorem setLock_same {b : Bool} (h : w.coordinator.config.reentrancyLock = b) :
    w.setCoordinator (w.coordinator.setLock b) = w := by
  subst h
  rfl

/-- The end of a migration, with the lock taken: `start` is compared with what is
there once the lock is free again. -/
theorem follows_setCoordinators {newCoordinator : Address} (hsilent : l.call.Silent)
    (consumers : List Address) (hp : Agree H this K forced (w, ops)) (hfree : inDelivery ops = none)
    (hstart : Since H this K start (w.setCoordinator (w.coordinator.setLock false), ops)) :
    Follows H K forced l start ((do
      setCoordinators newCoordinator consumers
      .tx (write fun c => c.setLock false) : CoordinatorProc Unit) w) ops := by
  induction consumers generalizing w ops with
  | nil =>
    refine follows_tx (x := write fun c => c.setLock false) hsilent fun w' h => ?_
    rw [write_ok.mp h]
    exact ⟨agree_setLock hp fun hbusy => absurd hfree hbusy, hstart⟩
  | cons consumer rest ih =>
    unfold setCoordinators
    rw [Proc.bind_assoc]
    refine Outcome.relies_recorded_call hp (fun u w' ops' hp' hsince => ?_) fun _ _ _ _ => trivial
    rw [Proc.bind_assoc]
    refine Outcome.relies_recorded_tx fun _ w₁ h => ?_
    obtain ⟨-, rfl⟩ := Tx.revertIf_ok.mp h
    exact ih hp' (hsince.delivery.trans hfree)
      (since_trans _ _ _ hstart (since_setLock false hsince))

theorem follows_migrate {sender newCoordinator : Address} (hH : H.FreshSubIds this K)
    (hsilent : l.call.Silent) (hp : Agree H this K forced (w, ops)) :
    Follows H K forced l (w, ops) (migrate this sender subId newCoordinator w) ops := by
  unfold migrate
  refine Outcome.relies_recorded_tx fun _ _ h => ?_
  obtain ⟨hfree, rfl⟩ := nonReentrant_ok.mp h
  refine Outcome.relies_recorded_tx fun _ _ h => ?_
  obtain ⟨rfl, rfl⟩ := Tx.get_ok.mp h
  refine Outcome.relies_recorded_tx fun _ _ h => ?_
  obtain ⟨-, rfl⟩ := Tx.revertIf_ok.mp h
  refine Outcome.relies_recorded_tx fun got w₁ h => ?_
  simp only [Tx.view_ok, getSubscription, Result.bind_ok, Result.revertIf_ok, Result.pure_ok] at h
  obtain ⟨⟨_, halive, rfl⟩, rfl⟩ := h
  refine Outcome.relies_recorded_tx fun _ _ h => ?_
  obtain ⟨-, rfl⟩ := Tx.revertIf_ok.mp h
  refine Outcome.relies_recorded_tx fun _ w₁ h => ?_
  obtain ⟨hclear, rfl⟩ := Tx.revertIf_ok.mp h
  refine Outcome.relies_recorded_tx fun _ w₂ h => ?_
  obtain ⟨-, -, -, rfl⟩ := deleteSubscription_ok.mp h
  obtain ⟨hagree, hsince⟩ :=
    step_deleted hH hp halive fun _ => Bool.eq_false_iff.mpr hclear
  have hidle := not_inDelivery hp hfree
  unfold callOnMigration
  rw [Proc.bind_assoc]
  refine Outcome.relies_recorded_tx fun _ _ h => ?_
  obtain ⟨rfl, rfl⟩ := Tx.get_ok.mp h
  rw [Proc.bind_assoc]
  refine Outcome.relies_recorded_tx fun _ _ h => ?_
  obtain ⟨-, rfl⟩ := Tx.revertIf_ok.mp h
  rw [Proc.bind_assoc]
  refine Outcome.relies_recorded_tx fun _ w₃ h => ?_
  rw [Tx.modify_ok.mp h, Proc.bind_assoc]
  refine Outcome.relies_recorded_call (agree_world hagree rfl) (fun u w₄ ops' hp' hsince' => ?_)
    fun _ _ _ _ => trivial
  have hhanded : Since H this K (w₁, ops) (w₄, ops') :=
    since_trans _ _ _ hsince (since_from_world hsince' rfl)
  have hidle' : inDelivery ops' = none := hsince'.delivery.trans hidle
  have hfree' : w₄.coordinator.config.reentrancyLock = false := hsince'.lock.trans hfree
  refine Outcome.relies_recorded_tx fun _ w₅ h => ?_
  obtain ⟨-, rfl⟩ := Tx.revertIf_ok.mp h
  refine Outcome.relies_recorded_tx fun _ w₆ h => ?_
  obtain ⟨hcoordinator, -⟩ := payLink_same h
  refine Outcome.relies_recorded_tx fun _ w₇ h => ?_
  rw [write_ok.mp h]
  have hpaid := agree_world hp' hcoordinator
  refine follows_setCoordinators hsilent _ (agree_setLock hpaid fun _ => rfl) hidle' ?_
  have hsame : w₆.setCoordinator (w₆.coordinator.setLock false) = w₆ :=
    setLock_same (hcoordinator ▸ hfree')
  show Since H this K _ (w₆.setCoordinator (w₆.coordinator.setLock false), ops')
  rw [hsame]
  exact since_world hhanded hcoordinator

/-! ## A request -/

theorem setConsumer_apply {consumer a : Address} {s : ConsumerConfig} {n : Nat} :
    (c.setConsumer consumer subId s).consumers a n =
      if a = consumer ∧ n = subId then s else c.consumers a n := by
  show update c.consumers consumer (update (c.consumers consumer) subId s) a n = _
  by_cases ha : a = consumer
  · subst ha
    rw [update_self, update_apply]
    simp only [true_and]
  · rw [update_of_ne ha, if_neg fun h => ha h.1]

/-- The id of the next request was not given out before. -/
theorem fresh_requestId (hH : H.CollisionFree this K) (hp : Agree H this K forced (w, ops))
    (halive : w.coordinator.ownerOf subId ≠ 0) {keyHash : Nat} {sender : Address}
    (hhashed : .requestId keyHash sender subId
      ((w.coordinator.consumers sender subId).nonce + 1) ∈ K) :
    computeRequestId H keyHash sender subId ((w.coordinator.consumers sender subId).nonce + 1) ∉
      requestIds ops := by
  intro hmem
  obtain ⟨sender', request, hop⟩ := VRFCoordinator.mem_requestIds.mp hmem
  obtain ⟨-, nonce, hhashed', hid, hnonce⟩ := hp.keyed sender' request _ hop
  -- it would be a request of the same consumer, with a nonce that was not reached yet
  obtain ⟨rfl, rfl, rfl⟩ := collisionFree_requestId hH hhashed hhashed' hid
  exact absurd (hnonce halive) (Nat.not_succ_le_self _)

section Request

variable {sender : Address} {req : Request} {blockNumber : Nat} {nativePayment : Bool}

/-- The id and the commitment of the request are hashes of `K`. -/
def RequestHashed (H : Keccak) (K : List Preimage) (w : World) (sender : Address) (req : Request)
    (blockNumber : Nat) : Prop :=
  .requestId req.keyHash sender req.subId
      ((w.coordinator.consumers sender req.subId).nonce + 1) ∈ K ∧
    .commitment (computeRequestId H req.keyHash sender req.subId
        ((w.coordinator.consumers sender req.subId).nonce + 1))
      (commitmentOf ⟨sender, req.decoded⟩ blockNumber) ∈ K

theorem requested_consumers (a : Address) (n : Nat) :
    (requested H w sender req blockNumber nativePayment).coordinator.consumers a n =
      if a = sender ∧ n = req.subId then
        { w.coordinator.consumers sender req.subId with
          nonce := (w.coordinator.consumers sender req.subId).nonce + 1
          pendingReqCount := (w.coordinator.consumers sender req.subId).pendingReqCount + 1 }
      else w.coordinator.consumers a n := setConsumer_apply

/-- The new request is committed to, under its new id. -/
theorem refines_requested (hH : H.CollisionFree this K) (hp : Agree H this K forced (w, ops))
    (hfree : w.coordinator.config.reentrancyLock = false)
    (halive : w.coordinator.ownerOf req.subId ≠ 0)
    (hargs : fromBytes req.extraArgs = .ok nativePayment)
    (hhashed : RequestHashed H K w sender req blockNumber) :
    ∃ v, Run VRFCoordinator.Step .new (ops ++ [.request sender req.decoded
        (computeRequestId H req.keyHash sender req.subId
          ((w.coordinator.consumers sender req.subId).nonce + 1))]) v ∧
      Committed H K (requested H w sender req blockNumber nativePayment).coordinator v := by
  have hfresh := fresh_requestId hH hp halive hhashed.1
  have hidle := not_inDelivery hp hfree
  obtain ⟨v, hrun, hclosed, hpending⟩ := hp.refines
  have htracks := VRFCoordinator.tracks_run hrun
  have hlock : v.reentrancyLock = false := by
    rw [htracks.locked, hidle]
    rfl
  have hnew : v.issued (computeRequestId H req.keyHash sender req.subId
      ((w.coordinator.consumers sender req.subId).nonce + 1)) = false := by
    rw [Bool.eq_false_iff]
    exact fun hissued => hfresh ((htracks.issued _).mp hissued)
  have hnative : req.decoded.nativePayment = nativePayment := by
    unfold Request.decoded
    rw [hargs]
    rfl
  refine ⟨_, .snoc hrun (.request (VRFCoordinator.requestRandomWords_ok.mpr
    ⟨hlock, _, rfl, hnew, rfl⟩)), fun id h => ?_, fun id p h => ?_⟩
  · rw [VRFCoordinator.addRequest_requests] at h
    split at h
    · cases h
    · next hid =>
      show update w.coordinator.requestCommitments _ _ id = 0
      rw [update_of_ne hid]
      exact hclosed id h
  · rw [VRFCoordinator.addRequest_requests] at h
    split at h
    · next hid =>
      cases h
      refine ⟨blockNumber, hid ▸ hhashed.2, ?_⟩
      show update w.coordinator.requestCommitments _ _ id = _
      rw [hid, update_self]
      unfold commitmentOf
      rw [hnative]
      rfl
    · next hid =>
      obtain ⟨blockNum, hmem, hcommitment⟩ := hpending id p h
      refine ⟨blockNum, hmem, ?_⟩
      show update w.coordinator.requestCommitments _ _ id = _
      rw [update_of_ne hid]
      exact hcommitment

theorem agree_requested (hH : H.CollisionFree this K) (hp : Agree H this K forced (w, ops))
    (hfree : w.coordinator.config.reentrancyLock = false)
    (halive : w.coordinator.ownerOf req.subId ≠ 0)
    (hactive : (w.coordinator.consumers sender req.subId).active = true)
    (hargs : fromBytes req.extraArgs = .ok nativePayment)
    (hhashed : RequestHashed H K w sender req blockNumber) :
    Agree H this K forced (requested H w sender req blockNumber nativePayment,
      ops ++ [.request sender req.decoded (computeRequestId H req.keyHash sender req.subId
        ((w.coordinator.consumers sender req.subId).nonce + 1))]) where
  books := books_requested hp.books
  refines := refines_requested hH hp hfree halive hargs hhashed
  locked := fun hbusy => absurd VRFCoordinator.inDelivery_request hbusy
  keyed := by
    intro sender' request id hop
    rcases List.mem_append.mp hop with hold | hnew
    · obtain ⟨hmade, nonce, hmem, hid, hnonce⟩ := hp.keyed sender' request id hold
      refine ⟨hmade, nonce, hmem, hid, fun hthere => ?_⟩
      have hle := hnonce hthere
      rw [requested_consumers]
      split
      · next hsame =>
        obtain ⟨rfl, hsub⟩ := hsame
        rw [hsub] at hle
        exact Nat.le_succ_of_le hle
      · exact hle
    · cases List.mem_singleton.mp hnew
      refine ⟨hp.books.created _ ((hp.books.owned _).mpr halive), _, hhashed.1, rfl, fun _ => ?_⟩
      rw [requested_consumers, if_pos ⟨rfl, rfl⟩]
  counted := by
    intro a s hthere
    have hcounted := hp.counted a s hthere
    have hidle : inDelivery ops = none := not_inDelivery hp hfree
    simp only [hidle, reduceCtorEq, if_false] at hcounted
    rw [VRFCoordinator.inDelivery_request, if_neg nofun, VRFCoordinator.about_request,
      requested_consumers]
    by_cases hsame : a = sender ∧ s = req.subId
    · -- one request more on record, and one more counted
      obtain ⟨rfl, rfl⟩ := hsame
      rw [if_pos ⟨rfl, rfl⟩, if_pos ⟨rfl, rfl⟩, VRFCoordinator.takenIds_request,
        VRFCoordinator.requestIds_request, List.length_append, List.length_singleton]
      simp only
      omega
    · rw [if_neg hsame, if_neg fun h => hsame ⟨h.1.symm, h.2.symm⟩]
      exact hcounted
  listed := by
    intro a s hcount
    rw [requested_consumers] at hcount
    split at hcount
    · next hsame =>
      obtain ⟨rfl, rfl⟩ := hsame
      exact (hp.books.consumers _ _).mpr hactive
    · exact hp.listed a s hcount
  kept := by
    intro sender' request id hop huntaken hunforced
    rw [VRFCoordinator.takenIds_request] at huntaken
    rcases List.mem_append.mp hop with hold | hnew
    · exact hp.kept sender' request id hold huntaken hunforced
    · cases List.mem_singleton.mp hnew
      exact halive

theorem since_requested (hp : Agree H this K forced (w, ops))
    (hfree : w.coordinator.config.reentrancyLock = false) (asked : RandomWordsRequest) :
    Since H this K (w, ops) (requested H w sender req blockNumber nativePayment,
      ops ++ [.request sender asked id]) where
  lock := rfl
  delivery := VRFCoordinator.inDelivery_request.trans (not_inDelivery hp hfree).symm
  held := fun hbusy => absurd (not_inDelivery hp hfree) hbusy
  subNonce := Nat.le_refl _
  buried := fun _ _ hdead => hdead
  stranded := by
    intro sender' request id' hop huntaken _ _
    rw [VRFCoordinator.takenIds_request]
    exact ⟨List.mem_append_left _ hop, huntaken⟩

theorem follows_requestRandomWords {hthis : sender ≠ this} {hzero : sender ≠ 0}
    (hH : H.CollisionFree this K) (hp : Agree H this K forced (w, ops))
    (hhashed : RequestHashed H K w sender req blockNumber) :
    Follows H K forced ⟨sender, hthis, hzero, .requestRandomWords req blockNumber⟩ (w, ops)
      ((Proc.tx do
        let _ ← requestRandomWords H sender req blockNumber
        pure () : CoordinatorProc Unit) w) ops := by
  refine Outcome.relies_recorded_return fun w' h => ?_
  obtain ⟨id, w₁, hrequest, hrest⟩ := Tx.bind_ok.mp h
  obtain ⟨-, rfl⟩ := Tx.pure_ok.mp hrest
  obtain ⟨hfree, halive, hactive, -, -, nativePayment, hargs, rfl⟩ := requestRandomWords_ok hrequest
  exact ⟨agree_requested hH hp hfree halive hactive hargs hhashed, since_requested hp hfree _⟩

end Request

/-! ## A delivery -/

/-- The storage that the consumer finds when it is called back. -/
def delivering (w : World) (id : Nat) : World :=
  w.setCoordinator ({ w.coordinator with
    requestCommitments := update w.coordinator.requestCommitments id 0 }.setLock true)

section Delivery

variable {rc : RequestCommitment} {onlyPremium : Bool} {f : Fulfilment} {gasPrice : Nat}

/-- What was committed to is open, and has these arguments. -/
theorem open_of_commitment (hH : H.CollisionFree this K) (hp : Agree H this K forced (w, ops))
    (hopen : w.coordinator.requestCommitments id ≠ 0)
    (hrc : w.coordinator.requestCommitments id = H.commitment id rc)
    (hhashed : .commitment id rc ∈ K) :
    ∃ v p blockNum, Run VRFCoordinator.Step .new ops v ∧ Committed H K w.coordinator v ∧
      v.requests id = some p ∧ rc = commitmentOf p blockNum := by
  obtain ⟨v, hrun, hcommitted⟩ := hp.refines
  cases hrequest : v.requests id with
  | none => exact absurd (hcommitted.closed id hrequest) hopen
  | some p =>
    obtain ⟨blockNum, hmem, hcommitment⟩ := hcommitted.pending id p hrequest
    exact ⟨v, p, blockNum, hrun, hcommitted, hrequest,
      collisionFree_commitment hH hhashed hmem (hrc.symm.trans hcommitment)⟩

/-- The request that is delivered is closed, and no other. -/
theorem refines_taken (hH : H.CollisionFree this K) (hp : Agree H this K forced (w, ops))
    (hfree : w.coordinator.config.reentrancyLock = false)
    (hopen : w.coordinator.requestCommitments id ≠ 0)
    (hrc : w.coordinator.requestCommitments id = H.commitment id rc)
    (hhashed : .commitment id rc ∈ K) :
    ∃ v, Run VRFCoordinator.Step .new (ops ++ [.take id rc.sender rc.subId rc.numWords]) v ∧
      Committed H K (delivering w id).coordinator v := by
  obtain ⟨v, p, blockNum, hrun, hcommitted, hrequest, rfl⟩ :=
    open_of_commitment hH hp hopen hrc hhashed
  have hlock : v.reentrancyLock = false := by
    rw [(VRFCoordinator.tracks_run hrun).locked, not_inDelivery hp hfree]
    rfl
  refine ⟨_, .snoc hrun (.take (VRFCoordinator.takeRequest_ok.mpr ⟨hlock, hrequest, rfl⟩)),
    fun n h => ?_, fun n p' h => ?_⟩
  · show update w.coordinator.requestCommitments id 0 n = 0
    rw [update_apply]
    split
    · rfl
    · next hn =>
      rw [VRFCoordinator.removeRequest_requests, if_neg hn] at h
      exact hcommitted.closed n h
  · obtain ⟨hn, hbefore⟩ := VRFCoordinator.of_removeRequest h
    obtain ⟨blockNum, hmem, hcommitment⟩ := hcommitted.pending n p' hbefore
    refine ⟨blockNum, hmem, ?_⟩
    show update w.coordinator.requestCommitments id 0 n = _
    rw [update_of_ne hn]
    exact hcommitment

theorem agree_taken (hH : H.CollisionFree this K) (hp : Agree H this K forced (w, ops))
    (hfree : w.coordinator.config.reentrancyLock = false)
    (hopen : w.coordinator.requestCommitments id ≠ 0)
    (hrc : w.coordinator.requestCommitments id = H.commitment id rc)
    (hhashed : .commitment id rc ∈ K) :
    Agree H this K forced
      (delivering w id, ops ++ [.take id rc.sender rc.subId rc.numWords]) where
  books := books_same hp.books {}
  refines := refines_taken hH hp hfree hopen hrc hhashed
  locked := fun _ => rfl
  keyed := fun sender request n hop =>
    hp.keyed sender request n (VRFCoordinator.request_mem_take.mp hop)
  counted := by
    intro a s hthere
    have hcounted := hp.counted a s hthere
    rw [not_inDelivery hp hfree, if_neg nofun] at hcounted
    rw [VRFCoordinator.inDelivery_take, VRFCoordinator.about_take]
    by_cases hsame : rc.sender = a ∧ rc.subId = s
    · -- one delivery more on record, which is under way and still counted
      obtain ⟨rfl, rfl⟩ := hsame
      rw [if_pos ⟨rfl, rfl⟩, if_pos rfl, VRFCoordinator.takenIds_take,
        VRFCoordinator.requestIds_take, List.length_append, List.length_singleton]
      exact congrArg (· + 1) hcounted
    · have hother : some (rc.sender, rc.subId) ≠ some (a, s) :=
        fun h => hsame (Prod.ext_iff.mp (Option.some.inj h))
      rw [if_neg hsame, if_neg hother]
      exact hcounted
  listed := hp.listed
  kept := by
    intro sender request n hop huntaken hunforced
    rw [VRFCoordinator.takenIds_take] at huntaken
    exact hp.kept sender request n (VRFCoordinator.request_mem_take.mp hop)
      (fun htaken => huntaken (List.mem_append_left _ htaken)) hunforced

/-- What a delivery does to the part of the storage that requests are about, once
the callback is over. -/
theorem settleDelivery_registry (h : settleDelivery rc onlyPremium f gasPrice w = .ok (u, w')) :
    0 < (w.coordinator.consumers rc.sender rc.subId).pendingReqCount ∧
      w'.coordinator.requestCommitments = w.coordinator.requestCommitments ∧
      w'.coordinator.config = w.coordinator.config ∧
      w'.coordinator.currentSubNonce = w.coordinator.currentSubNonce ∧
      w'.coordinator.subscriptionConfigs = w.coordinator.subscriptionConfigs ∧
      ∀ a s, w'.coordinator.consumers a s = if a = rc.sender ∧ s = rc.subId then
        { w.coordinator.consumers rc.sender rc.subId with
          pendingReqCount := (w.coordinator.consumers rc.sender rc.subId).pendingReqCount - 1 }
        else w.coordinator.consumers a s := by
  obtain ⟨w₁, payment, nativePayment, hcount, -, hcharge⟩ := settleDelivery_ok h
  obtain ⟨hpositive, rfl⟩ := countDelivery_ok hcount
  rcases chargePayment_ok hcharge with ⟨-, rfl⟩ | ⟨-, rfl⟩
  · exact ⟨hpositive, rfl, rfl, rfl, rfl, fun a s => setConsumer_apply⟩
  · exact ⟨hpositive, rfl, rfl, rfl, rfl, fun a s => setConsumer_apply⟩

/-- What a delivery leaves of the registry, in the terms of the storage during it. -/
structure Finished (rc : RequestCommitment) (c c' : Coordinator) : Prop where
  positive : 0 < (c.consumers rc.sender rc.subId).pendingReqCount
  commitments : c'.requestCommitments = c.requestCommitments
  free : c'.config.reentrancyLock = false
  subNonce : c'.currentSubNonce = c.currentSubNonce
  owner : ∀ s, c'.ownerOf s = c.ownerOf s
  list : ∀ s, c'.consumersOf s = c.consumersOf s
  consumers : ∀ a s, c'.consumers a s = if a = rc.sender ∧ s = rc.subId then
    { c.consumers rc.sender rc.subId with
      pendingReqCount := (c.consumers rc.sender rc.subId).pendingReqCount - 1 }
    else c.consumers a s

theorem finished_of_settled (h : settleDelivery rc onlyPremium f gasPrice
    (w.setCoordinator (w.coordinator.setLock false)) = .ok (u, w')) :
    Finished rc w.coordinator w'.coordinator := by
  obtain ⟨hpositive, hcommitments, hconfig, hnonce, hconfigs, hconsumers⟩ :=
    settleDelivery_registry h
  exact ⟨hpositive, hcommitments, congrArg Config.reentrancyLock hconfig, hnonce,
    fun s => congrArg (fun m : Nat → SubscriptionConfig => (m s).owner) hconfigs,
    fun s => congrArg (fun m : Nat → SubscriptionConfig => (m s).consumers) hconfigs, hconsumers⟩

theorem refines_finished {requestId numWords : Nat}
    (hp : Agree H this K forced (w, ops ++ [.take requestId rc.sender rc.subId numWords]))
    (h : Finished rc w.coordinator w'.coordinator) :
    ∃ v, Run VRFCoordinator.Step .new
        (ops ++ [.take requestId rc.sender rc.subId numWords] ++ [.finish]) v ∧
      Committed H K w'.coordinator v := by
  obtain ⟨v, hrun, hclosed, hpending⟩ := hp.refines
  have hlock : v.reentrancyLock = true := by
    rw [(VRFCoordinator.tracks_run hrun).locked, VRFCoordinator.inDelivery_take]
    rfl
  refine ⟨_, .snoc hrun (.finish hlock (VRFCoordinator.finish_ok.mpr ⟨rfl, rfl⟩)),
    fun n hn => ?_, fun n p hn => ?_⟩
  · exact (congrFun h.commitments n).trans (hclosed n hn)
  · obtain ⟨blockNum, hmem, hcommitment⟩ := hpending n p hn
    exact ⟨blockNum, hmem, (congrFun h.commitments n).trans hcommitment⟩

theorem agree_finished {requestId numWords : Nat}
    (hp : Agree H this K forced (w, ops ++ [.take requestId rc.sender rc.subId numWords]))
    (hsettle : settleDelivery rc onlyPremium f gasPrice
      (w.setCoordinator (w.coordinator.setLock false)) = .ok (u, w'))
    (h : Finished rc w.coordinator w'.coordinator) :
    Agree H this K forced
      (w', ops ++ [.take requestId rc.sender rc.subId numWords] ++ [.finish]) where
  books := (books_settleDelivery (books_same hp.books {}) hsettle).1
  refines := refines_finished hp h
  locked := fun hbusy => absurd VRFCoordinator.inDelivery_finish hbusy
  keyed := by
    intro sender request n hop
    obtain ⟨hmade, nonce, hmem, hid, hle⟩ :=
      hp.keyed sender request n (VRFCoordinator.request_mem_finish.mp hop)
    refine ⟨made_mono h.subNonce.ge hmade, nonce, hmem, hid, fun hthere => ?_⟩
    rw [h.owner] at hthere
    have hnonces := hle hthere
    rw [h.consumers]
    split
    · next hsame =>
      rw [hsame.1, hsame.2] at hnonces
      exact hnonces
    · exact hnonces
  counted := by
    intro a s hthere
    rw [h.owner] at hthere
    have hcounted := hp.counted a s hthere
    have hpositive := h.positive
    rw [VRFCoordinator.inDelivery_take] at hcounted
    rw [VRFCoordinator.inDelivery_finish, if_neg nofun, VRFCoordinator.about_finish, h.consumers]
    by_cases hsame : a = rc.sender ∧ s = rc.subId
    · -- the delivery is over, and no longer counted
      obtain ⟨rfl, rfl⟩ := hsame
      rw [if_pos rfl] at hcounted
      rw [if_pos ⟨rfl, rfl⟩]
      simp only at hcounted ⊢
      omega
    · have hother : some (rc.sender, rc.subId) ≠ some (a, s) := by
        intro hboth
        obtain ⟨rfl, rfl⟩ := Prod.ext_iff.mp (Option.some.inj hboth)
        exact hsame ⟨rfl, rfl⟩
      rw [if_neg hother] at hcounted
      rw [if_neg hsame]
      exact hcounted
  listed := by
    intro a s hcount
    rw [h.list]
    rw [h.consumers] at hcount
    split at hcount
    · next hsame =>
      rw [hsame.1, hsame.2]
      exact hp.listed _ _ h.positive.ne'
    · exact hp.listed a s hcount
  kept := by
    intro sender request n hop huntaken hunforced
    rw [VRFCoordinator.takenIds_finish] at huntaken
    rw [h.owner]
    exact hp.kept sender request n (VRFCoordinator.request_mem_finish.mp hop) huntaken hunforced

/-- A delivery that completes is one on a subscription that is there. -/
theorem alive_of_finished (hp : Agree H this K forced (w, ops))
    (h : Finished rc w.coordinator w'.coordinator) : w.coordinator.ownerOf rc.subId ≠ 0 :=
  fun hdead => h.positive.ne' (count_of_dead hp hdead rc.sender)

/-- What the call that delivers leaves as it is. -/
theorem since_delivered {q : World × List Op} (hH : H.CollisionFree this K)
    (hp : Agree H this K forced (w, ops)) (hfree : w.coordinator.config.reentrancyLock = false)
    (hopen : w.coordinator.requestCommitments id ≠ 0)
    (hrc : w.coordinator.requestCommitments id = H.commitment id rc)
    (hhashed : .commitment id rc ∈ K) (hq : Agree H this K forced q)
    (hsince : Since H this K
      (delivering w id, ops ++ [.take id rc.sender rc.subId rc.numWords]) q)
    (h : Finished rc q.1.coordinator w'.coordinator) :
    Since H this K (w, ops)
      (w', ops ++ [.take id rc.sender rc.subId rc.numWords] ++ [.finish]) := by
  have halive := alive_of_finished hq h
  obtain ⟨v, p, blockNum, hrun, -, hrequest, rfl⟩ := open_of_commitment hH hp hopen hrc hhashed
  have hidle := not_inDelivery hp hfree
  refine ⟨h.free.trans hfree.symm, VRFCoordinator.inDelivery_finish.trans hidle.symm,
    fun hbusy => absurd hidle hbusy, hsince.subNonce.trans h.subNonce.ge, fun s hmade hdead => ?_,
    fun sender request n hop huntaken hmade hdead => ?_⟩
  · rw [h.owner]
    exact hsince.buried s hmade hdead
  · refine ⟨List.mem_append_left _ (List.mem_append_left _ hop), ?_⟩
    rw [VRFCoordinator.takenIds_finish, VRFCoordinator.takenIds_take]
    intro htaken
    rcases List.mem_append.mp htaken with hbefore | hlast
    · exact huntaken hbefore
    · -- it would be the request that was delivered, whose subscription is there
      cases List.mem_singleton.mp hlast
      have hsame : v.requests id = some ⟨sender, request⟩ :=
        ((VRFCoordinator.tracks_run hrun).pending id ⟨sender, request⟩).mpr ⟨hop, huntaken⟩
      rw [hrequest] at hsame
      cases hsame
      exact halive (hsince.buried _ hmade hdead)

/-- After the callback: whether or not it was refused, the delivery is on record
in the end. -/
theorem follows_settle {sender : Address} {proof : Proof} {hthis : sender ≠ this}
    {hzero : sender ≠ 0} {w₁ : World} {ops₁ ops' : List Op} (hH : H.CollisionFree this K)
    (hp : Agree H this K forced (w, ops)) (hfree : w.coordinator.config.reentrancyLock = false)
    (hopen : w.coordinator.requestCommitments (proof.requestId H) ≠ 0)
    (hrc : w.coordinator.requestCommitments (proof.requestId H) =
      H.commitment (proof.requestId H) rc)
    (hhashed : .commitment (proof.requestId H) rc ∈ K) (hq : Agree H this K forced (w₁, ops₁))
    (hsince : Since H this K (delivering w (proof.requestId H),
      ops ++ [.take (proof.requestId H) rc.sender rc.subId rc.numWords]) (w₁, ops₁))
    (hrecord : (if proof.requestId H ∈ takenIds ops' then ops'
        else ops' ++ [.take (proof.requestId H) rc.sender rc.subId rc.numWords]) =
      ops ++ [.take (proof.requestId H) rc.sender rc.subId rc.numWords]) :
    Follows H K forced ⟨sender, hthis, hzero, .fulfillRandomWords proof rc onlyPremium f⟩ (w, ops)
      ((do
        .tx (write fun c => c.setLock false)
        .tx (settleDelivery rc onlyPremium f gasPrice) : CoordinatorProc Unit) w₁) ops' := by
  refine Outcome.relies_recorded_tx fun _ w₂ h => ?_
  rw [write_ok.mp h]
  refine Outcome.relies_recorded_return fun w' hsettle => ?_
  have hheld : ops₁ = ops ++ [.take (proof.requestId H) rc.sender rc.subId rc.numWords] :=
    hsince.held (by simp)
  have hagree : Agree H this K forced
      (w₁, ops ++ [.take (proof.requestId H) rc.sender rc.subId rc.numWords]) := by
    rw [← hheld]
    exact hq
  show Agree H this K forced (w', (if proof.requestId H ∈ takenIds ops' then ops'
      else ops' ++ [.take (proof.requestId H) rc.sender rc.subId rc.numWords]) ++ [.finish]) ∧
    Since H this K (w, ops) (w', (if proof.requestId H ∈ takenIds ops' then ops'
      else ops' ++ [.take (proof.requestId H) rc.sender rc.subId rc.numWords]) ++ [.finish])
  rw [hrecord]
  have hfinished := finished_of_settled hsettle
  exact ⟨agree_finished hagree hsettle hfinished,
    since_delivered hH hp hfree hopen hrc hhashed hq hsince hfinished⟩

theorem follows_fulfillRandomWords {sender : Address} {proof : Proof} {hthis : sender ≠ this}
    {hzero : sender ≠ 0} (hH : H.CollisionFree this K) (hp : Agree H this K forced (w, ops))
    (hhashed : .commitment (proof.requestId H) rc ∈ K) :
    Follows H K forced ⟨sender, hthis, hzero, .fulfillRandomWords proof rc onlyPremium f⟩ (w, ops)
      (fulfillRandomWords H proof rc onlyPremium f w) ops := by
  unfold fulfillRandomWords
  refine Outcome.relies_recorded_tx fun _ _ h => ?_
  obtain ⟨hfree, rfl⟩ := nonReentrant_ok.mp h
  refine Outcome.relies_recorded_tx fun _ _ h => ?_
  obtain ⟨-, rfl⟩ := Tx.revertIf_ok.mp h
  refine Outcome.relies_recorded_tx fun output _ h => ?_
  obtain ⟨hproof, rfl⟩ := Tx.view_ok.mp h
  obtain ⟨hid, hopen, hrc⟩ := getRandomnessFromProof_ok hproof
  have hid : output.requestId = proof.requestId H := hid
  rw [hid] at hopen hrc
  refine Outcome.relies_recorded_tx fun gasPrice w₁ h => ?_
  obtain ⟨-, rfl⟩ := Tx.view_ok.mp h
  refine Outcome.relies_recorded_tx fun _ w₂ h => ?_
  rw [write_ok.mp h, hid]
  unfold deliverRandomness
  rw [Proc.bind_assoc]
  refine Outcome.relies_recorded_tx fun _ w₃ h => ?_
  rw [write_ok.mp h, Proc.bind_assoc]
  refine Outcome.relies_recorded_tx fun _ w₄ h => ?_
  obtain ⟨-, rfl⟩ := Tx.revertIf_ok.mp h
  rw [Proc.bind_assoc]
  have hwords : ((List.range rc.numWords).map (H.randomWord output.randomness)).length =
      rc.numWords := by
    rw [List.length_map, List.length_range]
  have htaken : Agree H this K forced (delivering w₁ (proof.requestId H),
      ops ++ [.take (proof.requestId H) rc.sender rc.subId
        ((List.range rc.numWords).map (H.randomWord output.randomness)).length]) := by
    rw [hwords]
    exact agree_taken hH hp hfree hopen hrc hhashed
  have hhanded (q : World × List Op) (h : Since H this K (delivering w₁ (proof.requestId H),
      ops ++ [.take (proof.requestId H) rc.sender rc.subId
        ((List.range rc.numWords).map (H.randomWord output.randomness)).length]) q) :
      Since H this K (delivering w₁ (proof.requestId H),
        ops ++ [.take (proof.requestId H) rc.sender rc.subId rc.numWords]) q := by
    rw [hwords] at h
    exact h
  obtain ⟨v, p, -, hrun, -, hrequest, -⟩ := open_of_commitment hH hp hopen hrc hhashed
  have huntaken : proof.requestId H ∉ takenIds ops :=
    (((VRFCoordinator.tracks_run hrun).pending _ p).mp hrequest).2
  refine Outcome.relies_recorded_call htaken (fun u w₅ ops' hq hsince => ?_)
    fun w₅ ops' hq hsince => ?_
  · -- the callback returned: nothing was recorded inside it
    have hsince := hhanded _ hsince
    have hheld : ops' = ops ++ [.take (proof.requestId H) rc.sender rc.subId rc.numWords] :=
      hsince.held (by simp)
    refine follows_settle hH hp hfree hopen hrc hhashed hq hsince ?_
    rw [hheld, if_pos (by simp)]
  · -- it reverted, and the record of the delivery went with it
    refine follows_settle hH hp hfree hopen hrc hhashed hq (hhanded _ hsince) ?_
    rw [if_neg huntaken]

end Delivery

/-! ## All functions -/

theorem follows_exec (hH : H.CollisionFree this K) (l : Msg this) (hhashed : l.preimages H w ⊆ K)
    (hconfig : ∀ config fallback, l.call = .setConfig config fallback →
      w.coordinator.config.reentrancyLock = false)
    (hforced : ∀ subId, l.call = .ownerCancelSubscription subId → forced subId)
    (hp : Agree H this K forced (w, ops)) : Follows H K forced l (w, ops) (l.exec H w) ops := by
  have hfresh := collisionFree_subIds hH
  -- a plain call keeps control and only does what `Change` allows
  by_cases hplain : l.call.Plain
  · obtain ⟨x, hexec, hchange⟩ := exec_plain H K l hplain
    have hsilent : l.call.Silent := by
      obtain ⟨sender, hthis, hzero, call⟩ := l
      cases call with
      | requestRandomWords | fulfillRandomWords => exact hplain.elim
      | _ => trivial
    rw [hexec]
    exact follows_change hfresh hsilent hp fun w' => hchange w w' hhashed
  · rcases l with ⟨sender, hthis, hzero, call⟩
    cases call with
    | ownerCancelSubscription subId =>
      exact follows_ownerCancelSubscription hfresh trivial hp (hforced subId rfl)
    | recoverFunds dst => exact follows_recoverFunds trivial hp
    | recoverNativeFunds dst => exact follows_recoverNativeFunds trivial hp
    | withdrawNative recipient => exact follows_withdrawNative hfresh trivial hp
    | cancelSubscription subId dst => exact follows_cancelSubscription hfresh trivial hp
    | setConfig config fallback => exact follows_setConfig hfresh trivial hp (hconfig _ _ rfl)
    | requestRandomWords req blockNumber =>
      exact follows_requestRandomWords hH hp ⟨hhashed List.mem_cons_self,
        hhashed (List.mem_cons_of_mem _ (List.mem_singleton_self _))⟩
    | fulfillRandomWords proof rc onlyPremium f =>
      exact follows_fulfillRandomWords hH hp (hhashed (List.mem_singleton_self _))
    | migrate subId newCoordinator => exact follows_migrate hfresh trivial hp
    | _ => exact absurd trivial hplain

theorem agree_new {deployer : Address} {balance : Nat} {tokens : Address → Address → Nat} :
    Agree H this K forced (⟨Coordinator.new deployer, balance, tokens⟩, []) where
  books := by
    have hnew : Backed H this K False ⟨Coordinator.new deployer, balance, tokens⟩ := backed_new
    exact hnew.books
  refines := ⟨.new, .nil _, fun _ _ => rfl, fun _ _ h => nomatch h⟩
  locked := fun h => absurd rfl h
  keyed := fun _ _ _ hop => nomatch hop
  counted := fun _ _ h => absurd rfl h
  listed := fun _ _ h => absurd rfl h
  kept := fun _ _ _ hop => nomatch hop

end LifecycleLemmas

open LifecycleLemmas

/-! ## Every run -/

/-- A step in which the configuration is not set while the lock is taken. -/
def LockedStep (H : Keccak) (this : Address) (m : CoordinatorMachine) (ev : Event (Msg this) Unit)
    (m' : CoordinatorMachine) : Prop :=
  Step H this m ev m' ∧ ∀ l config fallback, ev = .call l → l.call = .setConfig config fallback →
    m.world.coordinator.config.reentrancyLock = false

/-- The owner cancels the subscription in these events. -/
def Forced {this : Address} (events : List (Event (Msg this) Unit)) (subId : Nat) : Prop :=
  ∃ l, .call l ∈ events ∧ l.call = .ownerCancelSubscription subId

/-- The machine with its record. -/
abbrev HistoryMachine := Machine CoordinatorError (World × List Op) Query Unit

namespace LifecycleLemmas

/-- Storage and record go together in every state, and the calls that wait can rely
on what calls inside them leave. -/
theorem agree_run_from {H : Keccak} {this : Address} {K : List Preimage} {forced : Nat → Prop}
    {base : World × List Op} {m m' : CoordinatorMachine} {n : HistoryMachine}
    {events : List (Event (Msg this) Unit)} (hH : H.CollisionFree this K)
    (hK : hashedIn H m events ⊆ K) (hrun : Run (LockedStep H this) m events m')
    (hforced : ∀ subId, Forced events subId → forced subId)
    (hrecords : Machine.Records (history H this) m n)
    (hsteady : n.Steady (Agree H this K forced) (Since H this K) base) :
    ∃ n' : HistoryMachine,
      Run (Machine.Step (Machine.recordedExec (Msg.exec H) (history H this))) n events n' ∧
      Machine.Records (history H this) m' n' ∧
      n'.Steady (Agree H this K forced) (Since H this K) base := by
  have hhashed := run_hashed (fun _ _ _ h => h.1) hrun hK
  have hmem := Run.restrict (C := fun ev => ev ∈ events) hhashed fun _ h => h
  refine Machine.recorded_run_of (fun _ _ _ h => h.1.1.1)
    (fun m m' ev n n' hstep hrecords hnext hsteady => ?_) hmem hrecords hsteady
  obtain ⟨⟨⟨-, hconfig⟩, hpreimages⟩, hmem⟩ := hstep
  refine Machine.steady_next since_refl since_trans (fun l hl => ?_) hsteady hnext
  have hworld : m'.world.1 = m.world := hrecords.world
  refine follows_exec hH l ?_ (fun config fallback hcall => ?_) (fun subId hcall => ?_)
    hsteady.world
  · rw [hworld]
    exact hpreimages l hl
  · rw [hworld]
    exact hconfig l config fallback hl hcall
  · exact hforced subId ⟨l, hl ▸ hmem, hcall⟩

/-- From the deployment on. -/
theorem agree_run {H : Keccak} {this deployer : Address} {balance : Nat}
    {tokens : Address → Address → Nat} {m : CoordinatorMachine}
    {events : List (Event (Msg this) Unit)}
    (hH : H.CollisionFree this
      (hashedIn H ⟨⟨Coordinator.new deployer, balance, tokens⟩, []⟩ events))
    (hrun : Run (LockedStep H this) ⟨⟨Coordinator.new deployer, balance, tokens⟩, []⟩ events m) :
    ∃ n : HistoryMachine,
      Run (Machine.Step (Machine.recordedExec (Msg.exec H) (history H this)))
        ⟨(⟨Coordinator.new deployer, balance, tokens⟩, []), []⟩ events n ∧
      Machine.Records (history H this) m n ∧
      n.Steady
        (Agree H this (hashedIn H ⟨⟨Coordinator.new deployer, balance, tokens⟩, []⟩ events)
          (Forced events))
        (Since H this (hashedIn H ⟨⟨Coordinator.new deployer, balance, tokens⟩, []⟩ events))
        (⟨Coordinator.new deployer, balance, tokens⟩, []) :=
  agree_run_from hH (fun _ h => h) hrun (fun _ h => h) ⟨rfl, .nil⟩ ⟨agree_new, since_refl _⟩

end LifecycleLemmas

/-- In every state of every run of the coordinator in which the configuration is
not set while the lock is taken and no two hashes collide, those in which a consumer or
a receiver has control included: the requests and deliveries on record are a run of
`VRFCoordinator`, whose open requests are those that the storage holds the
commitments of, each for its own arguments. So every request has an id of its own,
is delivered at most once, after it was made, to its consumer and with as many
words, and nothing else is requested or delivered while it is. -/
theorem requests_delivered_once {H : Keccak} {this deployer : Address} {balance : Nat}
    {tokens : Address → Address → Nat} {m : CoordinatorMachine}
    {events : List (Event (Msg this) Unit)}
    (hH : H.CollisionFree this
      (hashedIn H ⟨⟨Coordinator.new deployer, balance, tokens⟩, []⟩ events))
    (hrun : Run (LockedStep H this) ⟨⟨Coordinator.new deployer, balance, tokens⟩, []⟩ events m) :
    ∃ ops stack v,
      Run (Machine.Step (Machine.recordedExec (Msg.exec H) (history H this)))
        ⟨(⟨Coordinator.new deployer, balance, tokens⟩, []), []⟩ events ⟨(m.world, ops), stack⟩ ∧
      Run VRFCoordinator.Step .new ops v ∧ Tracks ops v ∧
      Committed H (hashedIn H ⟨⟨Coordinator.new deployer, balance, tokens⟩, []⟩ events)
        m.world.coordinator v ∧
      (v.reentrancyLock = true → m.world.coordinator.config.reentrancyLock = true) := by
  obtain ⟨⟨⟨world, ops⟩, stack⟩, hrecorded, hrecords, hsteady⟩ := agree_run hH hrun
  have hworld : world = m.world := hrecords.world
  subst hworld
  have hagree := hsteady.world
  obtain ⟨v, hops, hcommitted⟩ := hagree.refines
  have htracks := VRFCoordinator.tracks_run hops
  refine ⟨ops, stack, v, hrecorded, hops, htracks, hcommitted, fun hlock => hagree.locked ?_⟩
  rw [htracks.locked] at hlock
  exact Option.isSome_iff_ne_none.mp hlock

/-! ### One request after another

Coordinator at `2`, owned by `1`. The account `5` has a subscription with `1000` of
ETH, on which the consumer `6` makes two requests. -/

theorem consumer_ne_this : (6 : Address) ≠ 2 := by decide

theorem consumer_ne_zero : (6 : Address) ≠ 0 := by decide

def consumerCall (call : Call) : Event (Msg 2) Unit :=
  .call ⟨6, consumer_ne_this, consumer_ne_zero, call⟩

/-- Premiums of nothing, and a callback gas limit of `100`. -/
def sampleConfig : Config := ⟨3, 100, false, 0, 0, 0, 0, 0, 0⟩

def sampleRequest : Request := ⟨sampleKeyHash, firstSub, 3, 100, 2, argsToBytes true⟩

def askedEvents : List (Event (Msg 2) Unit) :=
  [ownerCall (.setConfig sampleConfig 1), ownerCall (.registerProvingKey (9, 0) 50),
   userCall (.createSubscription 70), userCall (.fundSubscriptionWithNative 1000 firstSub),
   userCall (.addConsumer firstSub 6), consumerCall (.requestRandomWords sampleRequest 70),
   consumerCall (.requestRandomWords sampleRequest 71)]

/-- `10` of gas used at a price of `2`. -/
def sampleFulfilment : Fulfilment := ⟨804, some 0, some 77, 2, true, 10, 0, none, 0⟩

/-- The delivery of the request with this seed, made in the block `blockNum`. -/
def sampleDelivery (seed blockNum : Nat) : Call :=
  .fulfillRandomWords ⟨(9, 0), seed⟩ (askedCommitment blockNum) false sampleFulfilment

/-- The second request is delivered. -/
def calledBackEvents : List (Event (Msg 2) Unit) :=
  askedEvents ++ [userCall (sampleDelivery secondSeed 71)]

theorem calledBack_collisionFree :
    sampleKeccak.CollisionFree 2 (hashedIn sampleKeccak sampleStart calledBackEvents) := by
  decide +kernel

/-- A step as long as it does not set the configuration while the lock is taken. -/
def lockedNext (H : Keccak) (m : CoordinatorMachine) (ev : Event (Msg 2) Unit) :
    Option CoordinatorMachine :=
  match ev with
  | .call ⟨_, _, _, .setConfig _ _⟩ =>
    if m.world.coordinator.config.reentrancyLock then none else m.next (Msg.exec H) ev
  | ev => m.next (Msg.exec H) ev

theorem lockedStep_of_next {H : Keccak} {m m' : CoordinatorMachine} {ev : Event (Msg 2) Unit}
    (h : lockedNext H m ev = some m') : LockedStep H 2 m ev m' := by
  unfold lockedNext at h
  split at h
  · split at h
    · cases h
    · next hfree =>
      exact ⟨h, fun _ _ _ _ _ => Bool.eq_false_iff.mpr hfree⟩
  · next hother =>
    refine ⟨h, fun l config fallback hl hcall => ?_⟩
    obtain ⟨sender, hthis, hzero, call⟩ := l
    cases hcall
    exact absurd hl (hother sender hthis hzero config fallback)

/-- In the callback of the second request the first one is still open. -/
theorem requests_delivered_once_called_back :
    ∃ (m : CoordinatorMachine) (v : VRFCoordinator),
      Run (LockedStep sampleKeccak 2) sampleStart calledBackEvents m ∧ m.stack.length = 1 ∧
        Committed sampleKeccak (hashedIn sampleKeccak sampleStart calledBackEvents)
          m.world.coordinator v ∧
        v.requests firstRequest ≠ none ∧ v.requests secondRequest = none := by
  obtain ⟨m, hrun, hstack, hfirst, hsecond⟩ : ∃ m : CoordinatorMachine,
      Run (LockedStep sampleKeccak 2) sampleStart calledBackEvents m ∧ m.stack.length = 1 ∧
        m.world.coordinator.requestCommitments firstRequest ≠ 0 ∧
        m.world.coordinator.requestCommitments secondRequest = 0 :=
    ⟨_, Run.of_foldlM (fun _ _ _ => lockedStep_of_next) (Option.some_get (by decide +kernel)).symm,
      by decide +kernel, by decide +kernel, by decide +kernel⟩
  obtain ⟨-, -, v, -, -, -, hcommitted, -⟩ :=
    requests_delivered_once calledBack_collisionFree hrun
  refine ⟨m, v, hrun, hstack, hcommitted, fun hclosed => hfirst (hcommitted.closed _ hclosed), ?_⟩
  cases hopen : v.requests secondRequest with
  | none => rfl
  | some p =>
    obtain ⟨blockNum, hmem, hcommitment⟩ := hcommitted.pending _ p hopen
    exact absurd (hcommitment.symm.trans hsecond) (commitment_ne calledBack_collisionFree hmem)

/-- During the callback of one delivery the owner sets the configuration. Now
another delivery goes through in it. -/
theorem config_during_callback_unlocks :
    ∃ m : CoordinatorMachine, Run (Step sampleKeccak 2) sampleStart
        (calledBackEvents ++ [ownerCall (.setConfig sampleConfig 1),
          userCall (sampleDelivery firstSeed 70)]) m ∧
      m.stack.length = 2 ∧ m.world.coordinator.config.reentrancyLock = true :=
  ⟨_, Run.of_foldlM (fun _ _ _ h => h) (Option.some_get (by decide +kernel)).symm,
    by decide +kernel, by decide +kernel⟩

end AdvFoundry.Vrf
