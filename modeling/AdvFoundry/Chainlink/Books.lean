import AdvFoundry.Chainlink.Effects

/-!
# The coordinator's books

`s_totalBalance` and `s_totalNativeBalance` are the sums of the subscriptions'
balances and of what the owner may withdraw, in every state of every run: also
while a payment, a callback or a migration has control. The ETH is there in every
state. The LINK is there as long as `recoverFunds` is called only when no call
waits, since a migration sends its LINK after the new coordinator had control
(`balances_backed`). With a recovery in between the coordinator is left with less
than it owes (`recovery_during_migration_overdraws`).

The set of ids names the subscriptions that are there, and
`getActiveSubscriptionIds` reads it page by page (`active_subscriptions_listed`).
-/

namespace AdvFoundry.Vrf

open Function PreimageLemmas EffectLemmas

namespace Coordinator

def linkOf (c : Coordinator) (subId : Nat) : Nat := (c.subscriptions subId).balance

def nativeOf (c : Coordinator) (subId : Nat) : Nat := (c.subscriptions subId).nativeBalance

def ownerOf (c : Coordinator) (subId : Nat) : Address := (c.subscriptionConfigs subId).owner

def consumersOf (c : Coordinator) (subId : Nat) : List Address :=
  (c.subscriptionConfigs subId).consumers

end Coordinator

/-- The totals are what they say they are, and the two records of subscriptions
and of consumers agree. -/
structure Books (H : Keccak) (this : Address) (K : List Preimage) (c : Coordinator) : Prop where
  link : c.totalBalance = c.subIds.sum c.linkOf + c.withdrawableTokens
  native : c.totalNativeBalance = c.subIds.sum c.nativeOf + c.withdrawableNative
  owned : ∀ id, id ∈ c.subIds.values ↔ c.ownerOf id ≠ 0
  dead : ∀ id, id ∉ c.subIds.values → c.linkOf id = 0 ∧ c.nativeOf id = 0 ∧ c.consumersOf id = []
  consumers : ∀ id a, a ∈ c.consumersOf id ↔ (c.consumers a id).active = true
  nodup : ∀ id, (c.consumersOf id).Nodup
  bounded : ∀ id, (c.consumersOf id).length ≤ MAX_CONSUMERS
  created : ∀ id ∈ c.subIds.values, ∃ sender blockhash nonce,
    .subId sender blockhash nonce ∈ K ∧ nonce < c.currentSubNonce ∧
    id = H.subId sender blockhash this nonce
  unlinked : c.link = 0 → c.totalBalance = 0

/-- The parts of the storage the books are about are the same. -/
structure SameBooks (c c' : Coordinator) : Prop where
  subIds : c'.subIds = c.subIds := by rfl
  linkOf : c'.linkOf = c.linkOf := by rfl
  nativeOf : c'.nativeOf = c.nativeOf := by rfl
  ownerOf : ∀ id, c'.ownerOf id ≠ 0 ↔ c.ownerOf id ≠ 0 := by exact fun _ => Iff.rfl
  consumersOf : c'.consumersOf = c.consumersOf := by rfl
  active : ∀ a id, (c'.consumers a id).active = (c.consumers a id).active := by exact fun _ _ => rfl
  totalBalance : c'.totalBalance = c.totalBalance := by rfl
  totalNativeBalance : c'.totalNativeBalance = c.totalNativeBalance := by rfl
  withdrawableTokens : c'.withdrawableTokens = c.withdrawableTokens := by rfl
  withdrawableNative : c'.withdrawableNative = c.withdrawableNative := by rfl
  currentSubNonce : c'.currentSubNonce = c.currentSubNonce := by rfl
  link : c'.link = 0 → c.link = 0 := by exact fun h => h

namespace BookLemmas

variable {H : Keccak} {K : List Preimage} {this : Address} {c c' : Coordinator} {subId : Nat}

theorem books_same (hc : Books H this K c) (h : SameBooks c c') : Books H this K c' where
  link := by rw [h.totalBalance, h.subIds, h.linkOf, h.withdrawableTokens]; exact hc.link
  native := by rw [h.totalNativeBalance, h.subIds, h.nativeOf, h.withdrawableNative]; exact hc.native
  owned := fun id => by rw [h.subIds, h.ownerOf]; exact hc.owned id
  dead := fun id => by rw [h.subIds, h.linkOf, h.nativeOf, h.consumersOf]; exact hc.dead id
  consumers := fun id a => by rw [h.consumersOf, h.active]; exact hc.consumers id a
  nodup := fun id => by rw [h.consumersOf]; exact hc.nodup id
  bounded := fun id => by rw [h.consumersOf]; exact hc.bounded id
  created := by rw [h.subIds, h.currentSubNonce]; exact hc.created
  unlinked := fun hlink => by rw [h.totalBalance]; exact hc.unlinked (h.link hlink)

/-! ## Writes to one subscription -/

/-- A field that the written value has as before. -/
theorem update_field_same {κ α β : Type} [DecidableEq κ] {f : α → β} {m : κ → α} {k : κ} {v : α}
    (h : f v = f (m k)) : (fun a => f (update m k v a)) = fun a => f (m a) := by
  show f ∘ update m k v = f ∘ m
  rw [comp_update, h]
  exact update_eq_self _ _

theorem linkOf_setSubscription {s : Subscription} :
    (c.setSubscription subId s).linkOf = update c.linkOf subId s.balance :=
  comp_update Subscription.balance c.subscriptions subId s

theorem nativeOf_setSubscription {s : Subscription} :
    (c.setSubscription subId s).nativeOf = update c.nativeOf subId s.nativeBalance :=
  comp_update Subscription.nativeBalance c.subscriptions subId s

/-- A write to a consumer's config that leaves this field as it was. -/
theorem setConsumer_field {α : Type} (f : ConsumerConfig → α) {consumer : Address}
    {s : ConsumerConfig} (h : f s = f (c.consumers consumer subId)) (a : Address) (id : Nat) :
    f ((c.setConsumer consumer subId s).consumers a id) = f (c.consumers a id) := by
  show f (update c.consumers consumer (update (c.consumers consumer) subId s) a id) = _
  by_cases ha : a = consumer
  · subst ha
    rw [update_self]
    exact congrFun (update_field_same h) id
  · rw [update_of_ne ha]

/-- The sum of one field after a write to a subscription, which if it is not in
use has and gets nothing. -/
theorem sum_write {f : Nat → Nat} {new : Nat} (set : EnumerableSet Nat)
    (hunused : subId ∉ set.values → f subId = 0 ∧ new = 0) :
    set.sum (update f subId new) + f subId = set.sum f + new := by
  by_cases h : subId ∈ set.values
  · exact EnumerableSet.sum_update h new
  · obtain ⟨hold, hnew⟩ := hunused h
    rw [hold, hnew]
    congr 1
    exact EnumerableSet.sum_congr fun b hb => update_of_ne (ne_of_mem_of_not_mem hb h) _ _

/-- A write to one subscription, with totals and withdrawable funds that follow. -/
theorem books_subscription {s : Subscription} {totalBalance totalNativeBalance : Nat}
    {withdrawableTokens withdrawableNative : Nat} (hc : Books H this K c)
    (hunused : subId ∉ c.subIds.values → s.balance = 0 ∧ s.nativeBalance = 0)
    (hlink : totalBalance + c.linkOf subId + c.withdrawableTokens =
      c.totalBalance + s.balance + withdrawableTokens)
    (hnative : totalNativeBalance + c.nativeOf subId + c.withdrawableNative =
      c.totalNativeBalance + s.nativeBalance + withdrawableNative)
    (hunlinked : c.link = 0 → totalBalance = 0) :
    Books H this K { c.setSubscription subId s with
      totalBalance := totalBalance
      totalNativeBalance := totalNativeBalance
      withdrawableTokens := withdrawableTokens
      withdrawableNative := withdrawableNative } := by
  refine ⟨?_, ?_, hc.owned, fun id hid => ?_, hc.consumers, hc.nodup, hc.bounded, hc.created,
    hunlinked⟩
  · show totalBalance = c.subIds.sum (c.setSubscription subId s).linkOf + withdrawableTokens
    have hsum := sum_write c.subIds fun h => ⟨(hc.dead _ h).1, (hunused h).1⟩
    have htotal := hc.link
    rw [linkOf_setSubscription]
    omega
  · show totalNativeBalance = c.subIds.sum (c.setSubscription subId s).nativeOf + withdrawableNative
    have hsum := sum_write c.subIds fun h => ⟨(hc.dead _ h).2.1, (hunused h).2⟩
    have htotal := hc.native
    rw [nativeOf_setSubscription]
    omega
  · obtain ⟨hlinkZero, hnativeZero, hnone⟩ := hc.dead id hid
    refine ⟨?_, ?_, hnone⟩
    · show (c.setSubscription subId s).linkOf id = 0
      rw [linkOf_setSubscription, update_apply]
      split
      · next h => exact (hunused (h ▸ hid)).1
      · exact hlinkZero
    · show (c.setSubscription subId s).nativeOf id = 0
      rw [nativeOf_setSubscription, update_apply]
      split
      · next h => exact (hunused (h ▸ hid)).2
      · exact hnativeZero

/-! ## Subscriptions come and go -/

/-- A new id is not in use. -/
theorem fresh_notMem {sender : Address} {blockhash : Nat} (hfresh : H.FreshSubIds this K)
    (hc : Books H this K c) (hhashed : .subId sender blockhash c.currentSubNonce ∈ K) :
    H.subId sender blockhash this c.currentSubNonce ∉ c.subIds.values := by
  intro hmem
  obtain ⟨s, b, n, hmade, hn, hid⟩ := hc.created _ hmem
  exact absurd (hfresh _ _ _ hhashed _ _ _ hmade hid) (Nat.ne_of_gt hn)

theorem books_created {sender : Address} {blockhash : Nat} (hfresh : H.FreshSubIds this K)
    (hc : Books H this K c) (hsender : sender ≠ 0)
    (hhashed : .subId sender blockhash c.currentSubNonce ∈ K) :
    Books H this K { c with
      currentSubNonce := c.currentSubNonce + 1
      subscriptions := update c.subscriptions
        (H.subId sender blockhash this c.currentSubNonce) .zero
      subscriptionConfigs := update c.subscriptionConfigs
        (H.subId sender blockhash this c.currentSubNonce) ⟨sender, 0, []⟩
      subIds := c.subIds.add (H.subId sender blockhash this c.currentSubNonce) } := by
  have hnew : H.subId sender blockhash this c.currentSubNonce ∉ c.subIds.values :=
    fresh_notMem hfresh hc hhashed
  generalize hid : H.subId sender blockhash this c.currentSubNonce = newId at hnew ⊢
  obtain ⟨hlinkZero, hnativeZero, hnone⟩ := hc.dead _ hnew
  have hlink : (fun id => (update c.subscriptions newId .zero id).balance) = c.linkOf :=
    update_field_same hlinkZero.symm
  have hnative : (fun id => (update c.subscriptions newId .zero id).nativeBalance) = c.nativeOf :=
    update_field_same hnativeZero.symm
  have hconsumers : (fun id => (update c.subscriptionConfigs newId ⟨sender, 0, []⟩ id).consumers) =
      c.consumersOf := update_field_same hnone.symm
  have howner (id : Nat) : (update c.subscriptionConfigs newId ⟨sender, 0, []⟩ id).owner =
      update c.ownerOf newId sender id := congrFun (comp_update SubscriptionConfig.owner _ _ _) id
  refine ⟨?_, ?_, fun id => ?_, fun id h => ?_, fun id a => ?_, fun id => ?_, fun id => ?_,
    fun id h => ?_, hc.unlinked⟩
  · show c.totalBalance = (c.subIds.add newId).sum
      (fun id => (update c.subscriptions newId .zero id).balance) + c.withdrawableTokens
    rw [hlink, EnumerableSet.sum_add hnew, hlinkZero, Nat.add_zero]
    exact hc.link
  · show c.totalNativeBalance = (c.subIds.add newId).sum
      (fun id => (update c.subscriptions newId .zero id).nativeBalance) + c.withdrawableNative
    rw [hnative, EnumerableSet.sum_add hnew, hnativeZero, Nat.add_zero]
    exact hc.native
  · show id ∈ (c.subIds.add newId).values ↔
      (update c.subscriptionConfigs newId ⟨sender, 0, []⟩ id).owner ≠ 0
    rw [EnumerableSet.mem_add, howner, update_apply]
    split
    · next h => exact ⟨fun _ => hsender, fun _ => .inl h⟩
    · next h => exact (or_iff_right h).trans (hc.owned id)
  · have hold : id ∉ c.subIds.values := fun hmem => h (EnumerableSet.mem_add.mpr (.inr hmem))
    obtain ⟨hl, hn, hcs⟩ := hc.dead id hold
    exact ⟨(congrFun hlink id).trans hl, (congrFun hnative id).trans hn,
      (congrFun hconsumers id).trans hcs⟩
  · show a ∈ (update c.subscriptionConfigs newId ⟨sender, 0, []⟩ id).consumers ↔ _
    rw [congrFun hconsumers id]
    exact hc.consumers id a
  · show (update c.subscriptionConfigs newId ⟨sender, 0, []⟩ id).consumers.Nodup
    rw [congrFun hconsumers id]
    exact hc.nodup id
  · show (update c.subscriptionConfigs newId ⟨sender, 0, []⟩ id).consumers.length ≤ MAX_CONSUMERS
    rw [congrFun hconsumers id]
    exact hc.bounded id
  · rcases EnumerableSet.mem_add.mp h with rfl | hold
    · exact ⟨sender, blockhash, c.currentSubNonce, hhashed, Nat.lt_succ_self _, hid.symm⟩
    · obtain ⟨s, b, n, hmade, hn, hid⟩ := hc.created id hold
      exact ⟨s, b, n, hmade, Nat.lt_succ_of_lt hn, hid⟩

/-- A deleted subscription takes its balances out of the totals. -/
theorem books_deleted {w : World} (hc : Books H this K w.coordinator)
    (halive : w.coordinator.ownerOf subId ≠ 0) : Books H this K (deleted w subId).coordinator := by
  have hmem := (hc.owned subId).mpr halive
  have hlink : (deleted w subId).coordinator.linkOf = update w.coordinator.linkOf subId 0 :=
    comp_update Subscription.balance _ _ _
  have hnative : (deleted w subId).coordinator.nativeOf = update w.coordinator.nativeOf subId 0 :=
    comp_update Subscription.nativeBalance _ _ _
  have hconsumers : (deleted w subId).coordinator.consumersOf =
      update w.coordinator.consumersOf subId [] := comp_update SubscriptionConfig.consumers _ _ _
  have howner : (deleted w subId).coordinator.ownerOf = update w.coordinator.ownerOf subId 0 :=
    comp_update SubscriptionConfig.owner _ _ _
  have hrest {f : Nat → Nat} : (w.coordinator.subIds.remove subId).sum (update f subId 0) =
      (w.coordinator.subIds.remove subId).sum f :=
    EnumerableSet.sum_congr fun b hb => update_of_ne (EnumerableSet.mem_remove.mp hb).2 0 f
  refine ⟨?_, ?_, fun id => ?_, fun id h => ?_, fun id a => ?_, fun id => ?_, fun id => ?_,
    fun id h => ?_, fun h => ?_⟩
  · show w.coordinator.totalBalance - w.coordinator.linkOf subId =
      (w.coordinator.subIds.remove subId).sum (deleted w subId).coordinator.linkOf +
        w.coordinator.withdrawableTokens
    have hsum := EnumerableSet.sum_remove (f := w.coordinator.linkOf) hmem
    have htotal := hc.link
    rw [hlink, hrest]
    omega
  · show w.coordinator.totalNativeBalance - w.coordinator.nativeOf subId =
      (w.coordinator.subIds.remove subId).sum (deleted w subId).coordinator.nativeOf +
        w.coordinator.withdrawableNative
    have hsum := EnumerableSet.sum_remove (f := w.coordinator.nativeOf) hmem
    have htotal := hc.native
    rw [hnative, hrest]
    omega
  · show id ∈ (w.coordinator.subIds.remove subId).values ↔ _
    rw [EnumerableSet.mem_remove, howner, update_apply]
    split
    · next h => exact ⟨fun hin => absurd h hin.2, fun hne => absurd rfl hne⟩
    · next h => exact (and_iff_left h).trans (hc.owned id)
  · rw [hlink, hnative, hconsumers]
    by_cases hid : id = subId
    · subst hid
      exact ⟨update_self .., update_self .., update_self ..⟩
    · rw [update_of_ne hid, update_of_ne hid, update_of_ne hid]
      exact hc.dead id fun hin => h (EnumerableSet.mem_remove.mpr ⟨hin, hid⟩)
  · rw [hconsumers]
    show _ ↔ (deleteConsumers subId (w.coordinator.consumersOf subId) w.coordinator.consumers a
      id).active = true
    rw [deleteConsumers_apply]
    by_cases hid : id = subId
    · subst hid
      rw [update_self]
      split
      · simp [ConsumerConfig.zero]
      · next hnot =>
        have hlisted : a ∉ w.coordinator.consumersOf id := fun hin => hnot ⟨rfl, hin⟩
        exact ⟨fun hin => absurd hin List.not_mem_nil,
          fun hactive => absurd ((hc.consumers id a).mpr hactive) hlisted⟩
    · rw [update_of_ne hid, if_neg fun hboth => hid hboth.1]
      exact hc.consumers id a
  · rw [hconsumers, update_apply]
    split
    · exact List.nodup_nil
    · exact hc.nodup id
  · rw [hconsumers, update_apply]
    split
    · exact Nat.zero_le _
    · exact hc.bounded id
  · exact hc.created id (EnumerableSet.mem_remove.mp h).1
  · show w.coordinator.totalBalance - _ = 0
    rw [hc.unlinked h, Nat.zero_sub]

/-- A consumer is added to the list of a subscription or taken off it, and its
own record says so. -/
theorem books_consumers {consumer : Address} {s : ConsumerConfig} {list : List Address}
    (hc : Books H this K c) (halive : c.ownerOf subId ≠ 0)
    (hself : consumer ∈ list ↔ s.active = true)
    (hothers : ∀ a, a ≠ consumer → (a ∈ list ↔ a ∈ c.consumersOf subId)) (hnodup : list.Nodup)
    (hbounded : list.length ≤ MAX_CONSUMERS) :
    Books H this K ((c.setConsumer consumer subId s).setSubscriptionConfig subId
      { c.subscriptionConfigs subId with consumers := list }) := by
  have hmem := (hc.owned subId).mpr halive
  have hlist : ∀ id, (update c.subscriptionConfigs subId
      { c.subscriptionConfigs subId with consumers := list } id).consumers =
        update c.consumersOf subId list id :=
    congrFun (comp_update SubscriptionConfig.consumers c.subscriptionConfigs subId _)
  have howner : (fun id => (update c.subscriptionConfigs subId
      { c.subscriptionConfigs subId with consumers := list } id).owner) = c.ownerOf :=
    update_field_same rfl
  refine ⟨hc.link, hc.native, fun id => (hc.owned id).trans ?_, fun id h => ?_, fun id a => ?_,
    fun id => ?_, fun id => ?_, hc.created, hc.unlinked⟩
  · exact Iff.of_eq (congrArg (· ≠ 0) (congrFun howner id).symm)
  · obtain ⟨hlink, hnative, hnone⟩ := hc.dead id h
    exact ⟨hlink, hnative, (hlist id).trans
      ((update_of_ne (ne_of_mem_of_not_mem hmem h).symm _ _).trans hnone)⟩
  · show a ∈ (update c.subscriptionConfigs subId _ id).consumers ↔
      (update c.consumers consumer (update (c.consumers consumer) subId s) a id).active = true
    rw [hlist]
    by_cases hid : id = subId
    · subst hid
      rw [update_self]
      by_cases ha : a = consumer
      · subst ha
        rw [update_self, update_self]
        exact hself
      · rw [update_of_ne ha, hothers a ha]
        exact hc.consumers id a
    · rw [update_of_ne hid]
      by_cases ha : a = consumer
      · subst ha
        rw [update_self, update_of_ne hid]
        exact hc.consumers id a
      · rw [update_of_ne ha]
        exact hc.consumers id a
  · show (update c.subscriptionConfigs subId _ id).consumers.Nodup
    rw [hlist, update_apply]
    split
    · exact hnodup
    · exact hc.nodup id
  · show (update c.subscriptionConfigs subId _ id).consumers.length ≤ MAX_CONSUMERS
    rw [hlist, update_apply]
    split
    · exact hbounded
    · exact hc.bounded id

/-! ## The changes -/

variable {w w' : World}

/-- Every plain function keeps the books. -/
theorem books_change (hfresh : H.FreshSubIds this K) (hc : Books H this K w.coordinator)
    (h : Change H this K w w') : Books H this K w'.coordinator := by
  cases h with
  | same => exact hc
  | admin | received => exact books_same hc {}
  | link link feed hunset => exact books_same hc { link := fun _ => hunset }
  | withdrawn recipient htotal hheld =>
    obtain ⟨hlink, hnative, howned, hdead, hconsumers, hnodup, hbounded, hcreated, hunlinked⟩ := hc
    refine ⟨?_, hnative, howned, hdead, hconsumers, hnodup, hbounded, hcreated, fun h => ?_⟩
    · show w.coordinator.totalBalance - w.coordinator.withdrawableTokens =
        w.coordinator.subIds.sum w.coordinator.linkOf + 0
      omega
    · show w.coordinator.totalBalance - _ = 0
      rw [hunlinked h, Nat.zero_sub]
  | linkFunded sender amount credited subId hsender hlink hcredited halive =>
    have hmem := (hc.owned subId).mpr halive
    refine books_subscription hc (fun h => absurd hmem h) ?_ ?_ fun h => absurd h hlink
    · simp only [Coordinator.linkOf, Coordinator.setSubscription]
      omega
    · simp only [Coordinator.nativeOf, Coordinator.setSubscription]
  | nativeFunded value credited subId hcredited halive =>
    have hmem := (hc.owned subId).mpr halive
    refine books_subscription hc (fun h => absurd hmem h) ?_ ?_ hc.unlinked
    · simp only [Coordinator.linkOf, Coordinator.setSubscription]
    · simp only [Coordinator.nativeOf, Coordinator.setSubscription]
      omega
  | created sender blockhash hsender hhashed => exact books_created hfresh hc hsender hhashed
  | owned subId owner requestedOwner howner halive =>
    have howners : ∀ id, (update w.coordinator.subscriptionConfigs subId
        { w.coordinator.subscriptionConfigs subId with
          owner := owner, requestedOwner := requestedOwner } id).owner ≠ 0 ↔
        w.coordinator.ownerOf id ≠ 0 := by
      intro id
      rw [update_apply]
      split
      · next h => exact iff_of_true howner (h ▸ halive)
      · rfl
    exact books_same hc { ownerOf := howners, consumersOf := update_field_same rfl }
  | consumerAdded subId consumer halive hnew hroom =>
    have hnone : consumer ∉ w.coordinator.consumersOf subId := by
      rw [hc.consumers, hnew]
      decide
    have hlength := hc.bounded subId
    refine books_consumers hc halive (iff_of_true (by simp) rfl) (fun a ha => ?_) ?_ ?_
    · rw [List.mem_append, List.mem_singleton, or_iff_left ha]
      rfl
    · exact List.nodup_append.mpr ⟨hc.nodup subId, List.nodup_singleton _, fun a ha b hb =>
        List.mem_singleton.mp hb ▸ ne_of_mem_of_not_mem ha hnone⟩
    · rw [List.length_append, List.length_singleton]
      exact Nat.lt_of_le_of_ne hlength hroom
  | consumerRemoved subId consumer halive hactive hpending =>
    have hnodup := hc.nodup subId
    have hbooks : Books H this K ((w.coordinator.setConsumer consumer subId
        { w.coordinator.consumers consumer subId with active := false }).setSubscriptionConfig subId
        { w.coordinator.subscriptionConfigs subId with
          consumers := swapRemove (w.coordinator.consumersOf subId) consumer }) :=
      books_consumers hc halive (iff_of_false (fun h => ((mem_swapRemove hnodup).mp h).2 rfl) Bool.false_ne_true)
        (fun a ha => (mem_swapRemove hnodup).trans (and_iff_left ha)) (nodup_swapRemove hnodup)
        (Nat.le_trans length_swapRemove_le (hc.bounded subId))
    exact hbooks

theorem books_requested {sender : Address} {req : Request} {blockNumber : Nat} {nativePayment : Bool}
    (hc : Books H this K w.coordinator) :
    Books H this K (requested H w sender req blockNumber nativePayment).coordinator :=
  books_same hc { active := setConsumer_field ConsumerConfig.active rfl }

/-- What the owner withdraws leaves the total. -/
theorem books_withdrawnNative (hc : Books H this K c) :
    Books H this K { c with
      withdrawableNative := 0
      totalNativeBalance := c.totalNativeBalance - c.withdrawableNative } := by
  obtain ⟨hlink, hnative, howned, hdead, hconsumers, hnodup, hbounded, hcreated, hunlinked⟩ := hc
  refine ⟨hlink, ?_, howned, hdead, hconsumers, hnodup, hbounded, hcreated, hunlinked⟩
  show c.totalNativeBalance - c.withdrawableNative = c.subIds.sum c.nativeOf + 0
  omega

/-- A delivery is counted and charged: the payment stays in the totals. -/
theorem books_settleDelivery {rc : RequestCommitment} {onlyPremium : Bool} {f : Fulfilment}
    {gasPrice : Nat} {u : Unit} (hc : Books H this K w.coordinator)
    (h : settleDelivery rc onlyPremium f gasPrice w = .ok (u, w')) :
    Books H this K w'.coordinator ∧
      w'.coordinator.totalNativeBalance = w.coordinator.totalNativeBalance ∧
      w'.coordinator.totalBalance = w.coordinator.totalBalance ∧
      w'.coordinator.link = w.coordinator.link ∧ w'.balance = w.balance ∧ w'.tokens = w.tokens := by
  obtain ⟨w₁, payment, nativePayment, hcount, -, hcharge⟩ := settleDelivery_ok h
  obtain ⟨-, rfl⟩ := countDelivery_ok hcount
  have hcounted : Books H this K ((w.coordinator.setSubscription rc.subId
      { w.coordinator.subscriptions rc.subId with
        reqCount := (w.coordinator.subscriptions rc.subId).reqCount + 1 }).setConsumer rc.sender
      rc.subId { w.coordinator.consumers rc.sender rc.subId with
        pendingReqCount := (w.coordinator.consumers rc.sender rc.subId).pendingReqCount - 1 }) :=
    books_same hc {
      linkOf := update_field_same rfl
      nativeOf := update_field_same rfl
      active := setConsumer_field ConsumerConfig.active rfl }
  rcases chargePayment_ok hcharge with ⟨henough, rfl⟩ | ⟨henough, rfl⟩
  · refine ⟨?_, rfl, rfl, rfl, rfl, rfl⟩
    refine books_subscription hcounted (fun hunused => ?_) ?_ ?_ hcounted.unlinked
    · obtain ⟨hlink, hnative, -⟩ := hcounted.dead _ hunused
      simp only [Coordinator.linkOf, Coordinator.nativeOf] at hlink hnative
      simp only [World.setCoordinator]
      omega
    · simp only [Coordinator.linkOf, Coordinator.setSubscription, World.setCoordinator]
    · simp only [Coordinator.nativeOf, Coordinator.setSubscription, World.setCoordinator] at henough ⊢
      omega
  · refine ⟨?_, rfl, rfl, rfl, rfl, rfl⟩
    refine books_subscription hcounted (fun hunused => ?_) ?_ ?_ hcounted.unlinked
    · obtain ⟨hlink, hnative, -⟩ := hcounted.dead _ hunused
      simp only [Coordinator.linkOf, Coordinator.nativeOf] at hlink hnative
      simp only [World.setCoordinator]
      omega
    · simp only [Coordinator.linkOf, Coordinator.setSubscription, World.setCoordinator] at henough ⊢
      omega
    · simp only [Coordinator.nativeOf, Coordinator.setSubscription, World.setCoordinator]

end BookLemmas

open BookLemmas

/-! ## What the coordinator holds -/

/-- The books, and the ETH and the LINK for the totals. The LINK is only claimed
when `guarded` holds. -/
structure Backed (H : Keccak) (this : Address) (K : List Preimage) (guarded : Prop) (w : World) :
    Prop where
  books : Books H this K w.coordinator
  native : w.coordinator.totalNativeBalance ≤ w.balance
  link : guarded → w.coordinator.link ≠ 0 →
    w.coordinator.totalBalance ≤ w.tokens w.coordinator.link this

/-- The LINK beyond the total does not get less. -/
def Covers (this : Address) (guarded : Prop) (w w' : World) : Prop :=
  guarded → w.coordinator.link ≠ 0 → w'.coordinator.link = w.coordinator.link ∧
    w'.coordinator.totalBalance + w.tokens w.coordinator.link this ≤
      w.coordinator.totalBalance + w'.tokens w.coordinator.link this

namespace BackedLemmas

variable {H : Keccak} {K : List Preimage} {this : Address} {guarded : Prop}
  {w w' w'' start : World}

theorem covers_refl (w : World) : Covers this guarded w w :=
  fun _ _ => ⟨rfl, Nat.le_refl _⟩

theorem covers_trans (w w' w'' : World) (h : Covers this guarded w w')
    (h' : Covers this guarded w' w'') : Covers this guarded w w'' := by
  intro hguarded hlink
  obtain ⟨hsame, hle⟩ := h hguarded hlink
  obtain ⟨hsame', hle'⟩ := h' hguarded (hsame ▸ hlink)
  rw [hsame] at hle'
  exact ⟨hsame'.trans hsame, by omega⟩

/-- LINK, total and holdings as before. -/
theorem covers_same (hlink : w'.coordinator.link = w.coordinator.link)
    (htotal : w'.coordinator.totalBalance = w.coordinator.totalBalance) (htokens : w'.tokens = w.tokens) :
    Covers this guarded w w' := by
  intro _ _
  rw [hlink, htotal, htokens]
  exact ⟨rfl, Nat.le_refl _⟩

/-- The LINK stays enough when the excess does not get less. -/
theorem link_covered (hw : Backed H this K guarded w) (hcovers : Covers this guarded w w')
    (hunset : w.coordinator.link = 0 → w'.coordinator.totalBalance = 0) :
    guarded → w'.coordinator.link ≠ 0 →
      w'.coordinator.totalBalance ≤ w'.tokens w'.coordinator.link this := by
  intro hguarded _
  by_cases hlink : w.coordinator.link = 0
  · rw [hunset hlink]
    exact Nat.zero_le _
  · obtain ⟨hsame, hle⟩ := hcovers hguarded hlink
    have hheld := hw.link hguarded hlink
    rw [hsame]
    omega

theorem change_covers (h : Change H this K w w') : Covers this guarded w w' := by
  cases h with
  | same | admin | nativeFunded | created | owned | consumerAdded | consumerRemoved =>
    exact covers_same rfl rfl rfl
  | link link feed hunset => exact fun _ hlink => absurd hunset hlink
  | withdrawn recipient htotal hheld =>
    refine fun _ _ => ⟨rfl, ?_⟩
    have hle := le_moveTokens_add w.tokens w.coordinator.link this recipient
      w.coordinator.withdrawableTokens
    simp only
    omega
  | linkFunded sender amount credited subId hsender hlink hcredited halive =>
    refine fun _ _ => ⟨rfl, ?_⟩
    have harrived := moveTokens_arrived w.tokens w.coordinator.link amount hsender.symm
    simp only
    omega
  | received tokens amount hheld =>
    exact fun _ _ => ⟨rfl, Nat.add_le_add_left (hheld _) _⟩

theorem change_backed (hfresh : H.FreshSubIds this K) (hw : Backed H this K guarded w)
    (h : Change H this K w w') : Backed H this K guarded w' := by
  have hbooks := books_change hfresh hw.books h
  refine ⟨hbooks, ?_, link_covered hw (change_covers h) fun hunset => ?_⟩
  · have hnative := hw.native
    cases h with
    | nativeFunded value credited subId hcredited halive =>
      simp only
      omega
    | received tokens amount hheld => exact Nat.le_add_right_of_le hnative
    | same | admin | link | withdrawn | linkFunded | created | owned | consumerAdded
    | consumerRemoved => exact hnative
  · have hzero := hw.books.unlinked hunset
    cases h with
    | withdrawn recipient htotal hheld =>
      show w.coordinator.totalBalance - _ = 0
      rw [hzero, Nat.zero_sub]
    | linkFunded sender amount credited subId hsender hlink => exact absurd hunset hlink
    | same | admin | link | nativeFunded | created | owned | consumerAdded | consumerRemoved
    | received => exact hzero

/-! ## The functions -/

/-- From `start` on, all goes well. -/
abbrev Keeps (H : Keccak) (this : Address) (K : List Preimage) (guarded : Prop) (start : World)
    {α : Type} (o : Outcome CoordinatorError World Query Unit α) : Prop :=
  o.Relies (Backed H this K guarded) (Covers this guarded)
    fun _ w => Backed H this K guarded w ∧ Covers this guarded start w

/-- More ETH is no harm. -/
theorem backed_balance {balance : Nat} (hw : Backed H this K guarded w) (h : w.balance ≤ balance) :
    Backed H this K guarded { w with balance := balance } :=
  ⟨hw.books, Nat.le_trans hw.native h, hw.link⟩

theorem keeps_sendNative {dst : Address} {amount : Nat}
    (hw : Backed H this K guarded { w with balance := w.balance - amount })
    (hstart : Covers this guarded start w) :
    Keeps H this K guarded start (sendNative dst amount w) := by
  unfold sendNative
  refine Proc.relies_tx_bind fun _ _ h => ?_
  obtain ⟨rfl, rfl⟩ := Tx.get_ok.mp h
  split
  · exact ⟨⟨hw.books, Nat.le_trans hw.native (Nat.sub_le _ _), hw.link⟩, hstart⟩
  · refine Proc.relies_tx_bind fun _ w₁ h => ?_
    rw [Tx.modify_ok.mp h]
    refine ⟨hw, fun answer w₂ hw₂ hcovers => ?_⟩
    have hcovers₂ : Covers this guarded start w₂ := covers_trans _ _ _ hstart hcovers
    cases answer with
    | some u => exact ⟨hw₂, hcovers₂⟩
    | none => exact ⟨backed_balance hw₂ (Nat.le_add_right _ _), hcovers₂⟩

/-- A last check keeps what there is. -/
theorem keeps_revertIf {p : Prop} [Decidable p] {e : CoordinatorError}
    (hw : Backed H this K guarded w) (hstart : Covers this guarded start w) :
    Keeps H this K guarded start ((Proc.tx (Tx.revertIf p e) : CoordinatorProc Unit) w) := by
  refine Proc.relies_tx fun _ w' h => ?_
  obtain ⟨-, rfl⟩ := Tx.revertIf_ok.mp h
  exact ⟨hw, hstart⟩

/-! ### LINK on its way -/

/-- As `Covers`, with `amount` of LINK more that is still to be sent. -/
def Owes (this : Address) (guarded : Prop) (amount : Nat) (w w' : World) : Prop :=
  guarded → w.coordinator.link ≠ 0 → w'.coordinator.link = w.coordinator.link ∧
    w'.coordinator.totalBalance + amount + w.tokens w.coordinator.link this ≤
      w.coordinator.totalBalance + w'.tokens w.coordinator.link this

variable {amount subId : Nat} {u : Unit}

theorem owes_trans (h : Owes this guarded amount w w') (h' : Covers this guarded w' w'') :
    Owes this guarded amount w w'' := by
  intro hguarded hlink
  obtain ⟨hsame, hle⟩ := h hguarded hlink
  obtain ⟨hsame', hle'⟩ := h' hguarded (hsame ▸ hlink)
  rw [hsame] at hle'
  exact ⟨hsame'.trans hsame, by omega⟩

theorem covers_of_owes (h : Owes this guarded amount w w') : Covers this guarded w w' := by
  intro hguarded hlink
  obtain ⟨hsame, hle⟩ := h hguarded hlink
  exact ⟨hsame, by omega⟩

theorem payLink_same {dst : Address} {e : CoordinatorError}
    (h : payLink this dst amount e w = .ok (u, w')) :
    w'.coordinator = w.coordinator ∧ w'.balance = w.balance := by
  rcases payLink_ok h with ⟨-, rfl⟩ | ⟨-, -, -, rfl⟩
  · exact ⟨rfl, rfl⟩
  · exact ⟨rfl, rfl⟩

/-- To send what is owed keeps the rest covered. -/
theorem payLink_backed {dst : Address} {e : CoordinatorError} (hs : Backed H this K guarded start)
    (hw : Backed H this K guarded w) (howes : Owes this guarded amount start w)
    (hunset : start.coordinator.link = 0 → amount = 0)
    (h : payLink this dst amount e w = .ok (u, w')) :
    Backed H this K guarded w' ∧ Covers this guarded start w' := by
  rcases payLink_ok h with ⟨-, rfl⟩ | ⟨hlink, hamount, hheld, rfl⟩
  · exact ⟨hw, covers_of_owes howes⟩
  · have hcovers : Covers this guarded start
        { w with tokens := moveTokens w.tokens w.coordinator.link this dst amount } := by
      intro hguarded hset
      obtain ⟨hsame, hle⟩ := howes hguarded hset
      have hmoved := le_moveTokens_add w.tokens w.coordinator.link this dst amount
      refine ⟨hsame, ?_⟩
      rw [hsame] at hmoved
      rw [hsame]
      simp only
      omega
    exact ⟨⟨hw.books, hw.native, link_covered hs hcovers fun h => absurd (hunset h) hamount⟩,
      hcovers⟩

/-- A deleted subscription leaves its LINK and its ETH to be sent. -/
theorem deleted_backed (hw : Backed H this K guarded w) (halive : w.coordinator.ownerOf subId ≠ 0) :
    Backed H this K guarded (deleted w subId) ∧
      Owes this guarded (w.coordinator.linkOf subId) w (deleted w subId) ∧
      (deleted w subId).coordinator.totalNativeBalance ≤ w.balance - w.coordinator.nativeOf subId ∧
      w.coordinator.nativeOf subId ≤ w.balance ∧
      (w.coordinator.link = 0 → w.coordinator.linkOf subId = 0) := by
  have hmem := (hw.books.owned subId).mpr halive
  have hlinkTotal := hw.books.link
  have hnativeTotal := hw.books.native
  have hlinkLe := EnumerableSet.le_sum (f := w.coordinator.linkOf) hmem
  have hnativeLe := EnumerableSet.le_sum (f := w.coordinator.nativeOf) hmem
  have hnative := hw.native
  have hlinkRest : (deleted w subId).coordinator.totalBalance + w.coordinator.linkOf subId =
      w.coordinator.totalBalance := by
    show w.coordinator.totalBalance - w.coordinator.linkOf subId + w.coordinator.linkOf subId = _
    omega
  have howes : Owes this guarded (w.coordinator.linkOf subId) w (deleted w subId) := by
    intro _ _
    rw [hlinkRest]
    exact ⟨rfl, Nat.le_refl _⟩
  have hnativeRest : (deleted w subId).coordinator.totalNativeBalance =
      w.coordinator.totalNativeBalance - w.coordinator.nativeOf subId := rfl
  refine ⟨⟨books_deleted hw.books halive, ?_, link_covered hw (covers_of_owes howes) fun h => ?_⟩,
    howes, ?_, ?_, fun h => ?_⟩
  · rw [hnativeRest]
    exact Nat.le_trans (Nat.sub_le _ _) hnative
  · have hzero := hw.books.unlinked h
    omega
  · rw [hnativeRest]
    exact Nat.sub_le_sub_right hnative _
  · omega
  · have hzero := hw.books.unlinked h
    omega

theorem keeps_cancelSubscriptionHelper {dst : Address} (hw : Backed H this K guarded w)
    (halive : w.coordinator.ownerOf subId ≠ 0) :
    Keeps H this K guarded w (cancelSubscriptionHelper this subId dst w) := by
  unfold cancelSubscriptionHelper
  refine Proc.relies_tx_bind fun balances w₁ h₁ => ?_
  obtain ⟨-, -, rfl, rfl⟩ := deleteSubscription_ok.mp h₁
  obtain ⟨hdeleted, howes, hnative, -, hunset⟩ := deleted_backed hw halive
  refine Proc.relies_tx_bind fun _ w₂ h₂ => ?_
  obtain ⟨hw₂, hcovers₂⟩ := payLink_backed hw hdeleted howes hunset h₂
  obtain ⟨hcoordinator, hbalance⟩ := payLink_same h₂
  have hsend : Backed H this K guarded
      { w₂ with balance := w₂.balance - w.coordinator.nativeOf subId } := by
    refine ⟨hw₂.books, ?_, hw₂.link⟩
    show w₂.coordinator.totalNativeBalance ≤ w₂.balance - w.coordinator.nativeOf subId
    rw [hcoordinator, hbalance]
    exact hnative
  exact Proc.relies_bind _ (keeps_sendNative hsend hcovers₂) fun _ _ h => keeps_revertIf h.1 h.2

theorem keeps_ownerCancelSubscription {sender : Address} (hw : Backed H this K guarded w) :
    Keeps H this K guarded w (ownerCancelSubscription this sender subId w) := by
  unfold ownerCancelSubscription
  refine Proc.relies_tx_bind fun _ _ h => ?_
  obtain ⟨-, rfl⟩ := onlyOwner_ok.mp h
  refine Proc.relies_tx_bind fun _ _ h => ?_
  obtain ⟨rfl, rfl⟩ := Tx.get_ok.mp h
  refine Proc.relies_tx_bind fun _ _ h => ?_
  obtain ⟨halive, rfl⟩ := Tx.revertIf_ok.mp h
  exact keeps_cancelSubscriptionHelper hw halive

theorem keeps_cancelSubscription {sender dst : Address} (hw : Backed H this K guarded w) :
    Keeps H this K guarded w (cancelSubscription this sender subId dst w) := by
  unfold cancelSubscription
  refine Proc.relies_tx_bind fun _ _ h => ?_
  obtain ⟨halive, -, rfl⟩ := onlySubOwner_ok.mp h
  refine Proc.relies_tx_bind fun _ _ h => ?_
  obtain ⟨-, rfl⟩ := nonReentrant_ok.mp h
  refine Proc.relies_tx_bind fun _ _ h => ?_
  obtain ⟨rfl, rfl⟩ := Tx.get_ok.mp h
  refine Proc.relies_tx_bind fun _ _ h => ?_
  obtain ⟨-, rfl⟩ := Tx.revertIf_ok.mp h
  exact keeps_cancelSubscriptionHelper hw halive

theorem keeps_recoverNativeFunds {sender dst : Address} (hw : Backed H this K guarded w) :
    Keeps H this K guarded w (recoverNativeFunds sender dst w) := by
  unfold recoverNativeFunds
  refine Proc.relies_tx_bind fun _ _ h => ?_
  obtain ⟨-, rfl⟩ := onlyOwner_ok.mp h
  refine Proc.relies_tx_bind fun _ _ h => ?_
  obtain ⟨rfl, rfl⟩ := Tx.get_ok.mp h
  refine Proc.relies_tx_bind fun _ w₁ h => ?_
  obtain ⟨-, rfl⟩ := Tx.revertIf_ok.mp h
  split
  · have hsend : Backed H this K guarded { w₁ with
        balance := w₁.balance - (w₁.balance - w₁.coordinator.totalNativeBalance) } := by
      refine ⟨hw.books, ?_, hw.link⟩
      have hnative := hw.native
      simp only
      omega
    exact Proc.relies_bind _ (keeps_sendNative hsend (covers_refl _)) fun _ _ h =>
      keeps_revertIf h.1 h.2
  · exact ⟨hw, covers_refl _⟩

theorem keeps_withdrawNative {sender recipient : Address} (hw : Backed H this K guarded w) :
    Keeps H this K guarded w (withdrawNative sender recipient w) := by
  unfold withdrawNative
  refine Proc.relies_tx_bind fun _ _ h => ?_
  obtain ⟨-, rfl⟩ := nonReentrant_ok.mp h
  refine Proc.relies_tx_bind fun _ _ h => ?_
  obtain ⟨-, rfl⟩ := onlyOwner_ok.mp h
  refine Proc.relies_tx_bind fun _ _ h => ?_
  obtain ⟨rfl, rfl⟩ := Tx.get_ok.mp h
  refine Proc.relies_tx_bind fun _ _ h => ?_
  obtain ⟨-, rfl⟩ := Tx.revertIf_ok.mp h
  refine Proc.relies_tx_bind fun _ w₁ h => ?_
  simp only [Tx.view_ok, subU_ok] at h
  obtain ⟨⟨htotal, rfl⟩, rfl⟩ := h
  refine Proc.relies_tx_bind fun _ w₂ h => ?_
  rw [write_ok.mp h]
  have hsend : Backed H this K guarded
      { (w₁.setCoordinator { w₁.coordinator with
          withdrawableNative := 0
          totalNativeBalance :=
            w₁.coordinator.totalNativeBalance - w₁.coordinator.withdrawableNative }) with
        balance := w₁.balance - w₁.coordinator.withdrawableNative } :=
    ⟨books_withdrawnNative hw.books, Nat.sub_le_sub_right hw.native _, hw.link⟩
  exact Proc.relies_bind _ (keeps_sendNative hsend (covers_same rfl rfl rfl)) fun _ _ h =>
    keeps_revertIf h.1 h.2

/-- Writes that the books are not about. -/
theorem backed_same {c : Coordinator} (hw : Backed H this K guarded w)
    (hsame : SameBooks w.coordinator c) (hlink : c.link = w.coordinator.link) :
    Backed H this K guarded (w.setCoordinator c) := by
  refine ⟨books_same hw.books hsame, ?_, fun hguarded hset => ?_⟩
  · show c.totalNativeBalance ≤ w.balance
    rw [hsame.totalNativeBalance]
    exact hw.native
  · show c.totalBalance ≤ w.tokens c.link this
    rw [hsame.totalBalance, hlink]
    exact hw.link hguarded (hlink ▸ hset)

theorem keeps_requestRandomWords {sender : Address} {req : Request} {blockNumber id : Nat}
    (hw : Backed H this K guarded w)
    (h : requestRandomWords H sender req blockNumber w = .ok (id, w')) :
    Backed H this K guarded w' ∧ Covers this guarded w w' := by
  obtain ⟨-, -, -, -, -, nativePayment, -, rfl⟩ := requestRandomWords_ok h
  exact ⟨backed_same hw { active := setConsumer_field ConsumerConfig.active rfl } rfl, covers_same rfl rfl rfl⟩

/-- A delivery: what is charged stays with the coordinator. -/
theorem keeps_fulfillRandomWords {proof : Proof} {rc : RequestCommitment} {onlyPremium : Bool}
    {f : Fulfilment} (hw : Backed H this K guarded w) :
    Keeps H this K guarded w (fulfillRandomWords H proof rc onlyPremium f w) := by
  unfold fulfillRandomWords
  refine Proc.relies_tx_bind fun _ _ h => ?_
  obtain ⟨-, rfl⟩ := nonReentrant_ok.mp h
  refine Proc.relies_tx_bind fun _ _ h => ?_
  obtain ⟨-, rfl⟩ := Tx.revertIf_ok.mp h
  refine Proc.relies_tx_bind fun output _ h => ?_
  obtain ⟨-, rfl⟩ := Tx.view_ok.mp h
  refine Proc.relies_tx_bind fun gasPrice w₁ h => ?_
  obtain ⟨-, rfl⟩ := Tx.view_ok.mp h
  refine Proc.relies_tx_bind fun _ w₂ h => ?_
  rw [write_ok.mp h]
  unfold deliverRandomness
  refine Proc.relies_bind (fun _ w => Backed H this K guarded w ∧ Covers this guarded w₁ w) ?_
    fun _ w₃ h₃ => Proc.relies_tx fun _ w₄ h₄ => ?_
  · refine Proc.relies_tx_bind fun _ w₃ h => ?_
    rw [write_ok.mp h]
    refine Proc.relies_tx_bind fun _ w₄ h => ?_
    obtain ⟨-, rfl⟩ := Tx.revertIf_ok.mp h
    refine ⟨backed_same (backed_same hw {} rfl) {} rfl, fun answer w₄ hw₄ hcovers => ?_⟩
    show Keeps H this K guarded w₁
      ((Proc.tx (write fun c => c.setLock false) : CoordinatorProc Unit) w₄)
    refine Proc.relies_tx fun _ w₅ h => ?_
    rw [write_ok.mp h]
    exact ⟨backed_same hw₄ {} rfl,
      covers_trans _ _ _ (covers_trans _ _ _ (covers_same rfl rfl rfl) hcovers)
        (covers_same rfl rfl rfl)⟩
  · obtain ⟨hw₃, hcovers₃⟩ := h₃
    obtain ⟨hbooks, hnative, htotal, hlink, hbalance, htokens⟩ := books_settleDelivery hw₃.books h₄
    have hcovers : Covers this guarded w₃ w₄ := covers_same hlink htotal htokens
    refine ⟨⟨hbooks, ?_, link_covered hw₃ hcovers fun hunset => ?_⟩, covers_trans _ _ _ hcovers₃ hcovers⟩
    · rw [hnative, hbalance]
      exact hw₃.native
    · exact htotal.trans (hw₃.books.unlinked hunset)

theorem keeps_setCoordinators {newCoordinator : Address} (consumers : List Address)
    (hw : Backed H this K guarded w) (hstart : Covers this guarded start w) :
    Keeps H this K guarded start (setCoordinators newCoordinator consumers w) := by
  induction consumers generalizing w with
  | nil => exact ⟨hw, hstart⟩
  | cons consumer rest ih =>
    refine ⟨hw, fun answer w₁ hw₁ hcovers => Proc.relies_tx_bind fun _ w₂ h => ?_⟩
    obtain ⟨-, rfl⟩ := Tx.revertIf_ok.mp h
    exact ih hw₁ (covers_trans _ _ _ hstart hcovers)

/-- A migration: while the new coordinator has control, its LINK is still here. -/
theorem keeps_migrate {sender newCoordinator : Address} (hw : Backed H this K guarded w) :
    Keeps H this K guarded w (migrate this sender subId newCoordinator w) := by
  unfold migrate
  refine Proc.relies_tx_bind fun _ _ h => ?_
  obtain ⟨-, rfl⟩ := nonReentrant_ok.mp h
  refine Proc.relies_tx_bind fun _ _ h => ?_
  obtain ⟨rfl, rfl⟩ := Tx.get_ok.mp h
  refine Proc.relies_tx_bind fun _ _ h => ?_
  obtain ⟨-, rfl⟩ := Tx.revertIf_ok.mp h
  refine Proc.relies_tx_bind fun got w₁ h => ?_
  simp only [Tx.view_ok, getSubscription, Result.bind_ok, Result.revertIf_ok, Result.pure_ok] at h
  obtain ⟨⟨_, halive, rfl⟩, rfl⟩ := h
  refine Proc.relies_tx_bind fun _ _ h => ?_
  obtain ⟨-, rfl⟩ := Tx.revertIf_ok.mp h
  refine Proc.relies_tx_bind fun _ w₁ h => ?_
  obtain ⟨-, rfl⟩ := Tx.revertIf_ok.mp h
  refine Proc.relies_tx_bind fun _ w₂ h => ?_
  obtain ⟨-, -, -, rfl⟩ := deleteSubscription_ok.mp h
  obtain ⟨hdeleted, howes, hnative, -, hunset⟩ := deleted_backed hw halive
  refine Proc.relies_bind (fun _ w' => Backed H this K guarded w' ∧
    Owes this guarded (w₁.coordinator.linkOf subId) w₁ w') ?_ fun _ w₃ h₃ => ?_
  · unfold callOnMigration
    refine Proc.relies_tx_bind fun _ _ h => ?_
    obtain ⟨rfl, rfl⟩ := Tx.get_ok.mp h
    refine Proc.relies_tx_bind fun _ _ h => ?_
    obtain ⟨-, rfl⟩ := Tx.revertIf_ok.mp h
    refine Proc.relies_tx_bind fun _ w₃ h => ?_
    rw [Tx.modify_ok.mp h]
    refine ⟨⟨hdeleted.books, hnative, hdeleted.link⟩, fun answer w₄ hw₄ hcovers => ?_⟩
    refine Proc.relies_tx fun _ w₅ h => ?_
    obtain ⟨-, rfl⟩ := Tx.revertIf_ok.mp h
    exact ⟨hw₄, owes_trans howes hcovers⟩
  · refine Proc.relies_tx_bind fun _ w₄ h => ?_
    obtain ⟨hw₄, hcovers₄⟩ := payLink_backed hw h₃.1 h₃.2 hunset h
    refine Proc.relies_tx_bind fun _ w₅ h => ?_
    rw [write_ok.mp h]
    have hlocked : Covers this guarded w₁ (w₄.setCoordinator (w₄.coordinator.setLock true)) :=
      covers_trans _ _ _ hcovers₄ (covers_same rfl rfl rfl)
    refine Proc.relies_bind _ (keeps_setCoordinators _ (backed_same hw₄ {} rfl) hlocked)
      fun _ w₆ h₆ => Proc.relies_tx fun _ w₇ h => ?_
    rw [write_ok.mp h]
    exact ⟨backed_same h₆.1 {} rfl, covers_trans _ _ _ h₆.2 (covers_same rfl rfl rfl)⟩

/-- A recovery leaves just the total. -/
theorem backed_recoverFunds {sender dst : Address} (hw : Backed H this K guarded w)
    (h : recoverFunds this sender dst w = .ok (u, w')) : Backed H this K guarded w' := by
  obtain ⟨hlink, henough, rfl | ⟨amount, hamount, rfl⟩⟩ := recoverFunds_ok h
  · exact hw
  · refine ⟨hw.books, hw.native, fun _ _ => ?_⟩
    have hmoved := le_moveTokens_add w.tokens w.coordinator.link this dst amount
    simp only
    omega

/-- Every call keeps what there is; a recovery of LINK only when it may. -/
theorem keeps_exec (hfresh : H.FreshSubIds this K) (m : Msg this)
    (hhashed : m.preimages H w ⊆ K)
    (hrecover : ∀ dst, m.call = .recoverFunds dst → ¬ guarded) (hw : Backed H this K guarded w) :
    Keeps H this K guarded w (m.exec H w) := by
  by_cases hplain : m.call.Plain
  · obtain ⟨x, hexec, hchange⟩ := exec_plain H K m hplain
    rw [hexec]
    exact Proc.relies_tx fun _ w' h =>
      ⟨change_backed hfresh hw (hchange w w' hhashed h), change_covers (hchange w w' hhashed h)⟩
  · rcases m with ⟨sender, hthis, hzero, call⟩
    cases call with
    | ownerCancelSubscription subId => exact keeps_ownerCancelSubscription hw
    | recoverFunds dst =>
      exact Proc.relies_tx fun _ w' h => ⟨backed_recoverFunds hw h, fun hguarded =>
        absurd hguarded (hrecover dst rfl)⟩
    | recoverNativeFunds dst => exact keeps_recoverNativeFunds hw
    | withdrawNative recipient => exact keeps_withdrawNative hw
    | cancelSubscription subId dst => exact keeps_cancelSubscription hw
    | requestRandomWords req blockNumber =>
      refine Proc.relies_tx fun _ w' h => ?_
      obtain ⟨id, w₁, hrequest, hrest⟩ := Tx.bind_ok.mp h
      obtain ⟨-, rfl⟩ := Tx.pure_ok.mp hrest
      exact keeps_requestRandomWords hw hrequest
    | setConfig config fallback =>
      refine Proc.relies_tx fun _ w' h => ?_
      rw [setConfig_ok h]
      exact ⟨backed_same hw {} rfl, covers_same rfl rfl rfl⟩
    | fulfillRandomWords proof rc onlyPremium f => exact keeps_fulfillRandomWords hw
    | migrate subId newCoordinator => exact keeps_migrate hw
    | _ => exact absurd trivial hplain

theorem sendNative_waiting (dst : Address) (h : amount ≤ w.balance) :
    ∃ resume, sendNative dst amount w =
      .waiting (.send dst amount) { w with balance := w.balance - amount } resume := by
  unfold sendNative
  rw [Proc.tx_bind_ok (Tx.get_ok.mpr ⟨rfl, rfl⟩), if_neg (Nat.not_lt.mpr h),
    Proc.tx_bind_ok (Tx.modify_ok (u := ()).mpr rfl)]
  exact ⟨_, rfl⟩

/-- Nobody finds less ETH than the total. -/
theorem recoverNativeFunds_unviolated {sender dst : Address} {internalBalance externalBalance : Nat}
    (hnative : w.coordinator.totalNativeBalance ≤ w.balance) :
    recoverNativeFunds sender dst w ≠
      .reverted (.error (.balanceInvariantViolated internalBalance externalBalance)) := by
  intro hviolated
  unfold recoverNativeFunds at hviolated
  by_cases howner : sender = w.coordinator.owner
  · rw [Proc.tx_bind_ok (onlyOwner_ok (u := ()).mpr ⟨howner, rfl⟩),
      Proc.tx_bind_ok (Tx.get_ok.mpr ⟨rfl, rfl⟩),
      Proc.tx_bind_ok (Tx.revertIf_ok (u := ()).mpr ⟨Nat.not_lt.mpr hnative, rfl⟩)] at hviolated
    split at hviolated
    · obtain ⟨resume, hwaiting⟩ := sendNative_waiting dst
        (Nat.sub_le w.balance w.coordinator.totalNativeBalance)
      change (sendNative dst _ w).bind _ = _ at hviolated
      rw [hwaiting] at hviolated
      cases hviolated
    · cases hviolated
  · have hrefused : onlyOwner sender w = .error (.error (.require "Only callable by owner")) := by
      show (Tx.revertIf _ _ : CoordinatorTx Unit) w = _
      exact if_pos howner
    rw [Proc.tx_bind_error hrefused] at hviolated
    cases hviolated

/-- The coordinator starts with nothing. -/
theorem backed_new {deployer : Address} {balance : Nat} {tokens : Address → Address → Nat} :
    Backed H this K guarded ⟨Coordinator.new deployer, balance, tokens⟩ := by
  refine ⟨⟨rfl, rfl, fun id => ?_, fun id _ => ⟨rfl, rfl, rfl⟩, fun id a => ?_, fun id => ?_,
    fun id => Nat.zero_le _, fun id h => ?_, fun _ => rfl⟩, Nat.zero_le _, fun _ h => absurd rfl h⟩
  · exact iff_of_false List.not_mem_nil fun h => h rfl
  · exact iff_of_false List.not_mem_nil Bool.false_ne_true
  · exact List.nodup_nil
  · exact absurd h List.not_mem_nil

end BackedLemmas

open BackedLemmas

/-! ## Every run -/

/-- In the run with these events, LINK is recovered only when no call waits. -/
def IdleRecovery (H : Keccak) {this : Address} (start : CoordinatorMachine)
    (events : List (Event (Msg this) Unit)) : Prop :=
  ∀ before l dst after m, events = before ++ .call l :: after → l.call = .recoverFunds dst →
    Run (Step H this) start before m → m.stack = []

namespace BackedLemmas

/-- In every state of the run, everything is backed, and the calls that wait can
rely on what they owe being there. -/
theorem backed_run {H : Keccak} {this deployer : Address} {balance : Nat}
    {tokens : Address → Address → Nat} {events : List (Event (Msg this) Unit)}
    (hfresh : H.FreshSubIds this
      (hashedIn H ⟨⟨Coordinator.new deployer, balance, tokens⟩, []⟩ events))
    {labels : List (Event (Msg this) Unit)} {m : CoordinatorMachine}
    (hrun : Run (Step H this) ⟨⟨Coordinator.new deployer, balance, tokens⟩, []⟩ labels m)
    (hinitial : ∃ after, events = labels ++ after) :
    ∃ base, m.Steady
      (Backed H this (hashedIn H ⟨⟨Coordinator.new deployer, balance, tokens⟩, []⟩ events)
        (IdleRecovery H ⟨⟨Coordinator.new deployer, balance, tokens⟩, []⟩ events))
      (Covers this (IdleRecovery H ⟨⟨Coordinator.new deployer, balance, tokens⟩, []⟩ events)) base := by
  induction hrun with
  | nil => exact ⟨_, backed_new, covers_refl _⟩
  | @snoc m m' labels ev hbefore hstep ih =>
    obtain ⟨after, hevents⟩ := hinitial
    rw [List.append_assoc] at hevents
    obtain ⟨base, hsteady⟩ := ih ⟨[ev] ++ after, hevents⟩
    by_cases hidle : ∃ l dst, ev = .call l ∧ l.call = .recoverFunds dst ∧ m.stack = []
    · -- a recovery while no call waits: nobody relies on what was there before
      obtain ⟨l, dst, rfl, hcall, hstack⟩ := hidle
      obtain ⟨w, stack⟩ := m
      cases hstack
      have hbacked := hsteady.world
      have hsettled : some (Machine.settle w [] (l.exec H w)) = some m' := hstep
      have hexec : l.exec H = .tx (recoverFunds this l.sender dst) := by
        unfold Msg.exec
        rw [hcall]
      rw [hexec] at hsettled
      cases hrecover : recoverFunds this l.sender dst w with
      | ok p =>
        simp only [Proc.tx, hrecover, Machine.settle, Option.some.injEq] at hsettled
        rw [← hsettled]
        exact ⟨_, backed_recoverFunds hbacked hrecover, covers_refl _⟩
      | error e =>
        simp only [Proc.tx, hrecover, Machine.settle, Option.some.injEq] at hsettled
        rw [← hsettled]
        exact ⟨_, hbacked, covers_refl _⟩
    · refine ⟨base, Machine.steady_next covers_refl covers_trans (fun l hl => ?_) hsteady hstep⟩
      subst hl
      have hhashed : l.preimages H m.world ⊆
          hashedIn H ⟨⟨Coordinator.new deployer, balance, tokens⟩, []⟩ events := by
        rw [hevents]
        exact preimages_subset hbefore
      refine keeps_exec hfresh l hhashed (fun dst hcall hguarded => hidle ⟨l, dst, rfl, hcall, ?_⟩)
        hsteady.world
      exact hguarded labels l dst after m hevents hcall hbefore

end BackedLemmas

/-- In every state of every run of the coordinator, those in which a payment, a
callback or a migration has control included: as long as subscriptions that were
created with different nonces got different ids, both totals are the sums of the
subscriptions' balances and of what is withdrawable, the records of subscriptions
and consumers agree, and the ETH for the total is there, so that
`recoverNativeFunds` never finds its invariant violated. If LINK is recovered only
when no call waits, the LINK is there too. -/
theorem balances_backed {H : Keccak} {this deployer : Address} {balance : Nat}
    {tokens : Address → Address → Nat} {m : CoordinatorMachine}
    {events : List (Event (Msg this) Unit)}
    (hfresh : H.FreshSubIds this
      (hashedIn H ⟨⟨Coordinator.new deployer, balance, tokens⟩, []⟩ events))
    (hrun : Run (Step H this) ⟨⟨Coordinator.new deployer, balance, tokens⟩, []⟩ events m) :
    Books H this (hashedIn H ⟨⟨Coordinator.new deployer, balance, tokens⟩, []⟩ events)
        m.world.coordinator ∧
      m.world.coordinator.totalNativeBalance ≤ m.world.balance ∧
      (∀ sender dst internalBalance externalBalance, recoverNativeFunds sender dst m.world ≠
        .reverted (.error (.balanceInvariantViolated internalBalance externalBalance))) ∧
      (IdleRecovery H ⟨⟨Coordinator.new deployer, balance, tokens⟩, []⟩ events →
        m.world.coordinator.link ≠ 0 →
          m.world.coordinator.totalBalance ≤ m.world.tokens m.world.coordinator.link this) := by
  obtain ⟨base, hsteady⟩ := backed_run hfresh hrun ⟨[], (List.append_nil events).symm⟩
  have hbacked := hsteady.world
  exact ⟨hbacked.books, hbacked.native, fun sender dst internalBalance externalBalance =>
    recoverNativeFunds_unviolated hbacked.native, hbacked.link⟩

/-! ## The list of subscriptions -/

namespace BookLemmas

theorem mapM_ok {α β ε : Type} {f : α → Result ε β} {xs : List α} {ys : List β}
    (h : List.Forall₂ (fun x y => f x = .ok y) xs ys) : xs.mapM f = .ok ys := by
  induction h with
  | nil => rfl
  | cons hx _ ih =>
    rw [List.mapM_cons, hx, ih]
    rfl

/-- What is returned is a page of the list. -/
theorem getActiveSubscriptionIds_page {c : Coordinator} {startIndex maxCount : Nat}
    (hstart : startIndex < c.subIds.length) (hsum : startIndex + maxCount < uintSize) :
    getActiveSubscriptionIds c startIndex maxCount = .ok ((c.subIds.values.drop startIndex).take
      (if maxCount = 0 then c.subIds.length else maxCount)) := by
  have hlength : c.subIds.length = c.subIds.values.length := rfl
  unfold getActiveSubscriptionIds
  refine Result.bind_ok.mpr ⟨(), Result.revertIf_ok.mpr (Nat.not_le.mpr hstart), ?_⟩
  refine Result.bind_ok.mpr ⟨_, addU_ok.mpr ⟨hsum, rfl⟩, ?_⟩
  refine mapM_ok (List.forall₂_iff_get.mpr ⟨?_, fun i hi hi' => ?_⟩)
  · rw [List.length_range, List.length_take, List.length_drop]
    split <;> split <;> omega
  · have hvalue : c.subIds.at? (i + startIndex) =
        some (((c.subIds.values.drop startIndex).take
          (if maxCount = 0 then c.subIds.length else maxCount)).get ⟨i, hi'⟩) := by
      rw [EnumerableSet.at?, List.get_eq_getElem, List.getElem_take, List.getElem_drop, Nat.add_comm]
      exact List.getElem?_eq_getElem _
    rw [List.get_eq_getElem, List.getElem_range, hvalue]
    rfl

end BookLemmas

/-- In every state of every run in which subscriptions created with different nonces got
different ids, `getActiveSubscriptionIds` reads pages of one list: the subscriptions that
are there, each of them once. -/
theorem active_subscriptions_listed {H : Keccak} {this deployer : Address} {balance : Nat}
    {tokens : Address → Address → Nat} {m : CoordinatorMachine}
    {events : List (Event (Msg this) Unit)}
    (hfresh : H.FreshSubIds this
      (hashedIn H ⟨⟨Coordinator.new deployer, balance, tokens⟩, []⟩ events))
    (hrun : Run (Step H this) ⟨⟨Coordinator.new deployer, balance, tokens⟩, []⟩ events m) :
    ∃ ids : List Nat, ids.Nodup ∧ (∀ id, id ∈ ids ↔ m.world.coordinator.ownerOf id ≠ 0) ∧
      ∀ startIndex maxCount, startIndex + maxCount < uintSize →
        getActiveSubscriptionIds m.world.coordinator startIndex maxCount =
          if ids.length ≤ startIndex then .error (.error .indexOutOfRange)
          else .ok ((ids.drop startIndex).take (if maxCount = 0 then ids.length else maxCount)) := by
  obtain ⟨base, hsteady⟩ := backed_run hfresh hrun ⟨[], (List.append_nil events).symm⟩
  have hbooks := hsteady.world.books
  refine ⟨m.world.coordinator.subIds.values, EnumerableSet.nodup_values, hbooks.owned,
    fun startIndex maxCount hsum => ?_⟩
  split
  · next hbeyond =>
    exact Result.bind_error.mpr (.inl (Result.revertIf_error.mpr ⟨hbeyond, rfl⟩))
  · next hinside =>
    exact getActiveSubscriptionIds_page (Nat.not_le.mp hinside) hsum

/-! ### Two subscriptions

Coordinator at `2`, owned by `1`, with LINK at `3`. The account `5` has two
subscriptions, with `10` and `5` LINK and `7` of ETH on the first. -/

def sampleStart : CoordinatorMachine := ⟨⟨Coordinator.new 1, 0, fun _ _ => 0⟩, []⟩

theorem owner_ne_this : (1 : Address) ≠ 2 := by decide

theorem owner_ne_zero : (1 : Address) ≠ 0 := by decide

theorem user_ne_this : (5 : Address) ≠ 2 := by decide

theorem user_ne_zero : (5 : Address) ≠ 0 := by decide

/-- A call of the owner, and one of the account `5`. -/
def ownerCall (call : Call) : Event (Msg 2) Unit := .call ⟨1, owner_ne_this, owner_ne_zero, call⟩

def userCall (call : Call) : Event (Msg 2) Unit := .call ⟨5, user_ne_this, user_ne_zero, call⟩

def fundedEvents : List (Event (Msg 2) Unit) :=
  [ownerCall (.setLINKAndLINKNativeFeed 3 4), userCall (.mint 3 5 15),
   userCall (.createSubscription 70), userCall (.createSubscription 71),
   userCall (.transferAndCall 3 10 (wordBytes firstSub)),
   userCall (.transferAndCall 3 5 (wordBytes secondSub)),
   userCall (.fundSubscriptionWithNative 7 firstSub)]

/-- The first is cancelled, in favour of the account `8`. -/
def cancellingEvents : List (Event (Msg 2) Unit) :=
  fundedEvents ++ [userCall (.cancelSubscription firstSub 8)]

/-- The ids of these runs. -/
theorem cancelling_freshSubIds :
    sampleKeccak.FreshSubIds 2 (hashedIn sampleKeccak sampleStart cancellingEvents) :=
  collisionFree_subIds (by decide +kernel)

theorem funded_freshSubIds :
    sampleKeccak.FreshSubIds 2 (hashedIn sampleKeccak sampleStart fundedEvents) :=
  collisionFree_subIds (by decide +kernel)

/-- While the receiver of a cancelled subscription has control, the books are
right, without it. -/
theorem balances_backed_cancelling :
    ∃ m : CoordinatorMachine,
      Run (Step sampleKeccak 2) sampleStart cancellingEvents m ∧ m.stack.length = 1 ∧
        Books sampleKeccak 2 (hashedIn sampleKeccak sampleStart cancellingEvents)
          m.world.coordinator ∧
        m.world.coordinator.totalBalance = 5 ∧ m.world.balance = 0 := by
  obtain ⟨m, hrun, hstack, htotal, hbalance⟩ : ∃ m : CoordinatorMachine,
      Run (Step sampleKeccak 2) sampleStart cancellingEvents m ∧ m.stack.length = 1 ∧
        m.world.coordinator.totalBalance = 5 ∧ m.world.balance = 0 :=
    ⟨_, Run.of_foldlM (fun _ _ _ h => h) (Option.some_get (by decide +kernel)).symm,
      by decide +kernel, by decide +kernel, by decide +kernel⟩
  exact ⟨m, hrun, hstack, (balances_backed cancelling_freshSubIds hrun).1, htotal, hbalance⟩

/-- The pages name the two subscriptions, and there is no other. -/
theorem active_subscriptions_listed_two :
    ∃ m : CoordinatorMachine, Run (Step sampleKeccak 2) sampleStart fundedEvents m ∧
      getActiveSubscriptionIds m.world.coordinator 1 5 = .ok [secondSub] ∧
      ∀ id, m.world.coordinator.ownerOf id ≠ 0 ↔ id = firstSub ∨ id = secondSub := by
  obtain ⟨m, hrun, hall, hlast⟩ : ∃ m : CoordinatorMachine,
      Run (Step sampleKeccak 2) sampleStart fundedEvents m ∧
        getActiveSubscriptionIds m.world.coordinator 0 0 = .ok [firstSub, secondSub] ∧
        getActiveSubscriptionIds m.world.coordinator 1 5 = .ok [secondSub] :=
    ⟨_, Run.of_foldlM (fun _ _ _ h => h) (Option.some_get (by decide +kernel)).symm,
      by decide +kernel, by decide +kernel⟩
  obtain ⟨ids, -, hmem, hpages⟩ := active_subscriptions_listed funded_freshSubIds hrun
  refine ⟨m, hrun, hlast, fun id => (hmem id).symm.trans ?_⟩
  have hpage := hall.symm.trans (hpages 0 0 (by decide))
  rw [if_pos rfl, List.drop_zero, List.take_length] at hpage
  split at hpage
  · cases hpage
  · cases hpage
    simp

/-- The second subscription migrates to the coordinator `9`. While `9` has
control, the owner recovers the LINK that has left the total and not yet the
coordinator. The migration sends it once more. -/
def migrationEvents : List (Event (Msg 2) Unit) :=
  fundedEvents ++ [ownerCall (.registerMigratableCoordinator 9), userCall (.migrate secondSub 9),
    ownerCall (.recoverFunds 1), .answer ()]

theorem recovery_during_migration_overdraws :
    ∃ m : CoordinatorMachine, Run (Step sampleKeccak 2) sampleStart migrationEvents m ∧
      m.stack = [] ∧ m.world.coordinator.totalBalance = 10 ∧
      m.world.tokens m.world.coordinator.link 2 = 5 :=
  ⟨_, Run.of_foldlM (fun _ _ _ h => h) (Option.some_get (by decide +kernel)).symm,
    rfl, by decide +kernel, by decide +kernel⟩

end AdvFoundry.Vrf
