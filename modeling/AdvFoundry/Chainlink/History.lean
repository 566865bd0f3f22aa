import AdvFoundry.Chainlink.Vrf
import AdvFoundry.Evm.Run
import Mathlib.Data.List.Perm.Subperm

/-!
# The history of a coordinator

The three operations of `VRFCoordinator` as the steps of a run, and what a list
of operations that is such a run says of every request (`tracks_run`): it has an
id of its own, it is delivered at most once, and only after it was made, to the
consumer who made it and with as many words; and nothing else happens while a
delivery is under way.
-/

namespace AdvFoundry.VRFCoordinator

/-- What the coordinator did. A delivery is `take`, the callback, and `finish`. -/
inductive Op
  | request (sender : Address) (request : RandomWordsRequest) (requestId : Nat)
  | take (requestId : Nat) (consumer : Address) (subId numWords : Nat)
  | finish

/-- A step of the coordinator. -/
inductive Step (v : VRFCoordinator) : Op → VRFCoordinator → Prop
  | request {sender : Address} {request : RandomWordsRequest} {requestId : Nat}
      {v' : VRFCoordinator}
      (h : requestRandomWords sender request (some requestId) v = .ok ((), v')) :
      Step v (.request sender request requestId) v'
  | take {requestId : Nat} {pending : Pending} {v' : VRFCoordinator}
      (h : takeRequest requestId v = .ok (pending, v')) :
      Step v (.take requestId pending.sender pending.request.subId pending.request.numWords) v'
  | finish {v' : VRFCoordinator} (hlock : v.reentrancyLock = true)
      (h : VRFCoordinator.finish true v = .ok ((), v')) : Step v .finish v'

/-- Nothing was requested yet. -/
def new : VRFCoordinator := ⟨fun _ => none, fun _ => false, false⟩

def Op.requested : Op → Option Nat
  | .request _ _ requestId => some requestId
  | _ => none

def Op.taken : Op → Option Nat
  | .take requestId _ _ _ => some requestId
  | _ => none

/-- The operation is about a request of this consumer on this subscription. -/
def Op.concerns (consumer : Address) (subId : Nat) : Op → Bool
  | .request sender asked _ => sender = consumer ∧ asked.subId = subId
  | .take _ consumer' subId' _ => consumer' = consumer ∧ subId' = subId
  | .finish => false

/-- The ids that were given out. -/
def requestIds (ops : List Op) : List Nat := ops.filterMap Op.requested

/-- The ids whose delivery began. -/
def takenIds (ops : List Op) : List Nat := ops.filterMap Op.taken

def about (consumer : Address) (subId : Nat) (ops : List Op) : List Op :=
  ops.filter (Op.concerns consumer subId)

/-- The delivery under way, if there is one, is the last operation. -/
def inDelivery (ops : List Op) : Option (Address × Nat) :=
  match ops.getLast? with
  | some (.take _ consumer subId _) => some (consumer, subId)
  | _ => none

/-- What the list of the operations so far says of the coordinator. -/
structure Tracks (ops : List Op) (v : VRFCoordinator) : Prop where
  issued : ∀ id, v.issued id = true ↔ id ∈ requestIds ops
  pending : ∀ id p, v.requests id = some p ↔
    .request p.sender p.request id ∈ ops ∧ id ∉ takenIds ops
  requested_once : (requestIds ops).Nodup
  taken_once : (takenIds ops).Nodup
  served : ∀ before id consumer subId numWords,
    before ++ [.take id consumer subId numWords] <+: ops → ∃ request,
      .request consumer request id ∈ before ∧ request.subId = subId ∧ request.numWords = numWords
  locked : v.reentrancyLock = (inDelivery ops).isSome
  undivided : ∀ before id consumer subId numWords op,
    before ++ [.take id consumer subId numWords] ++ [op] <+: ops → op = .finish

/-! ## One more operation -/

section Snoc

variable {ops : List Op} {op : Op} {id : Nat} {a consumer : Address} {s subId numWords : Nat}
  {request : RandomWordsRequest}

@[simp] theorem requestIds_request :
    requestIds (ops ++ [.request a request id]) = requestIds ops ++ [id] := by
  simp [requestIds, Op.requested]

@[simp] theorem requestIds_take :
    requestIds (ops ++ [.take id consumer subId numWords]) = requestIds ops := by
  simp [requestIds, Op.requested]

@[simp] theorem requestIds_finish : requestIds (ops ++ [.finish]) = requestIds ops := by
  simp [requestIds, Op.requested]

@[simp] theorem takenIds_request : takenIds (ops ++ [.request a request id]) = takenIds ops := by
  simp [takenIds, Op.taken]

@[simp] theorem takenIds_take :
    takenIds (ops ++ [.take id consumer subId numWords]) = takenIds ops ++ [id] := by
  simp [takenIds, Op.taken]

@[simp] theorem takenIds_finish : takenIds (ops ++ [.finish]) = takenIds ops := by
  simp [takenIds, Op.taken]

@[simp] theorem inDelivery_request : inDelivery (ops ++ [.request a request id]) = none := by
  simp [inDelivery]

@[simp] theorem inDelivery_take :
    inDelivery (ops ++ [.take id consumer subId numWords]) = some (consumer, subId) := by
  simp [inDelivery]

@[simp] theorem inDelivery_finish : inDelivery (ops ++ [.finish]) = none := by
  simp [inDelivery]

theorem about_request : about a s (ops ++ [.request consumer request id]) =
    if consumer = a ∧ request.subId = s then about a s ops ++ [.request consumer request id]
    else about a s ops := by
  unfold about
  split
  · next h => simp [Op.concerns, h]
  · next h => simp [Op.concerns, h]

theorem about_take : about a s (ops ++ [.take id consumer subId numWords]) =
    if consumer = a ∧ subId = s then about a s ops ++ [.take id consumer subId numWords]
    else about a s ops := by
  unfold about
  split
  · next h => simp [Op.concerns, h]
  · next h => simp [Op.concerns, h]

theorem about_finish : about a s (ops ++ [.finish]) = about a s ops := by
  simp [about, Op.concerns]

theorem mem_requestIds : id ∈ requestIds ops ↔ ∃ a request, .request a request id ∈ ops := by
  unfold requestIds
  rw [List.mem_filterMap]
  constructor
  · rintro ⟨op, hop, hid⟩
    cases op with
    | request a request id' =>
      cases hid
      exact ⟨a, request, hop⟩
    | take | finish => cases hid
  · rintro ⟨a, request, hop⟩
    exact ⟨_, hop, rfl⟩

theorem mem_takenIds :
    id ∈ takenIds ops ↔ ∃ consumer subId numWords, .take id consumer subId numWords ∈ ops := by
  unfold takenIds
  rw [List.mem_filterMap]
  constructor
  · rintro ⟨op, hop, hid⟩
    cases op with
    | take id' consumer subId numWords =>
      cases hid
      exact ⟨consumer, subId, numWords, hop⟩
    | request | finish => cases hid
  · rintro ⟨consumer, subId, numWords, hop⟩
    exact ⟨_, hop, rfl⟩

theorem mem_requestIds_about :
    id ∈ requestIds (about a s ops) ↔
      ∃ request, .request a request id ∈ ops ∧ request.subId = s := by
  rw [mem_requestIds]
  constructor
  · rintro ⟨a', request, hop⟩
    obtain ⟨hmem, hconcerns⟩ := List.mem_filter.mp hop
    obtain ⟨rfl, hsub⟩ := of_decide_eq_true hconcerns
    exact ⟨request, hmem, hsub⟩
  · rintro ⟨request, hmem, hsub⟩
    exact ⟨a, request, List.mem_filter.mpr ⟨hmem, decide_eq_true ⟨rfl, hsub⟩⟩⟩

theorem mem_takenIds_about :
    id ∈ takenIds (about a s ops) ↔ ∃ numWords, .take id a s numWords ∈ ops := by
  rw [mem_takenIds]
  constructor
  · rintro ⟨a', s', numWords, hop⟩
    obtain ⟨hmem, hconcerns⟩ := List.mem_filter.mp hop
    obtain ⟨rfl, rfl⟩ := of_decide_eq_true hconcerns
    exact ⟨numWords, hmem⟩
  · rintro ⟨numWords, hmem⟩
    exact ⟨a, s, numWords, List.mem_filter.mpr ⟨hmem, decide_eq_true ⟨rfl, rfl⟩⟩⟩

theorem request_mem_take {n : Nat} :
    .request a request n ∈ ops ++ [.take id consumer subId numWords] ↔
      .request a request n ∈ ops := by
  simp

theorem request_mem_finish {n : Nat} :
    .request a request n ∈ ops ++ [.finish] ↔ .request a request n ∈ ops := by
  simp

/-- A delivery under way is on record. -/
theorem taken_of_inDelivery (h : inDelivery ops = some (consumer, subId)) :
    ∃ before id numWords, ops = before ++ [.take id consumer subId numWords] := by
  unfold inDelivery at h
  split at h
  · next id c s n hlast =>
    cases h
    obtain ⟨before, rfl⟩ := List.getLast?_eq_some_iff.mp hlast
    exact ⟨before, id, n, rfl⟩
  · cases h

end Snoc

/-! ## Runs -/

namespace Tracks

variable {ops : List Op} {v v' : VRFCoordinator} {id : Nat} {consumer : Address}
  {subId numWords : Nat}

theorem of_new : Tracks [] new where
  issued := fun id => by simp [new, requestIds]
  pending := fun id p => by simp [new]
  requested_once := List.nodup_nil
  taken_once := List.nodup_nil
  served := fun before id consumer subId numWords h => by simp at h
  locked := rfl
  undivided := fun before id consumer subId numWords op h => by simp at h

/-- What was delivered had been requested. -/
theorem requested_of_taken (h : Tracks ops v) (hop : .take id consumer subId numWords ∈ ops) :
    ∃ request, .request consumer request id ∈ ops ∧ request.subId = subId ∧
      request.numWords = numWords := by
  obtain ⟨before, after, rfl⟩ := List.append_of_mem hop
  obtain ⟨request, hmem, hrest⟩ := h.served before id consumer subId numWords
    ⟨after, List.append_assoc before _ after⟩
  exact ⟨request, List.mem_append_left _ hmem, hrest⟩

/-- Only the last operation can break what held of the others. -/
theorem extend {op : Op} (h : Tracks ops v)
    (hissued : ∀ id, v'.issued id = true ↔ id ∈ requestIds (ops ++ [op]))
    (hpending : ∀ id p, v'.requests id = some p ↔
      .request p.sender p.request id ∈ ops ++ [op] ∧ id ∉ takenIds (ops ++ [op]))
    (hrequested : (requestIds (ops ++ [op])).Nodup) (htaken : (takenIds (ops ++ [op])).Nodup)
    (hserved : ∀ id consumer subId numWords, op = .take id consumer subId numWords → ∃ request,
      .request consumer request id ∈ ops ∧ request.subId = subId ∧ request.numWords = numWords)
    (hlocked : v'.reentrancyLock = (inDelivery (ops ++ [op])).isSome)
    (hundivided : inDelivery ops ≠ none → op = .finish) : Tracks (ops ++ [op]) v' where
  issued := hissued
  pending := hpending
  requested_once := hrequested
  taken_once := htaken
  served := by
    intro before id consumer subId numWords hbefore
    rcases List.prefix_concat_iff.mp hbefore with hlast | hearlier
    · obtain ⟨rfl, hop⟩ := List.append_inj' hlast rfl
      exact hserved id consumer subId numWords (List.singleton_inj.mp hop).symm
    · exact h.served before id consumer subId numWords hearlier
  locked := hlocked
  undivided := by
    intro before id consumer subId numWords op' hbefore
    rcases List.prefix_concat_iff.mp hbefore with hlast | hearlier
    · obtain ⟨rfl, hop⟩ := List.append_inj' hlast rfl
      rw [List.singleton_inj.mp hop]
      exact hundivided (by simp)
    · exact h.undivided before id consumer subId numWords op' hearlier

/-- No delivery is under way while the lock is free. -/
theorem not_inDelivery (h : Tracks ops v) (hfree : v.reentrancyLock = false) :
    inDelivery ops = none := by
  rw [← Option.not_isSome_iff_eq_none, ← h.locked, hfree]
  exact Bool.false_ne_true

theorem add_request {sender : Address} {request : RandomWordsRequest} (h : Tracks ops v)
    (hfree : v.reentrancyLock = false) (hnew : v.issued id = false) :
    Tracks (ops ++ [.request sender request id]) (v.addRequest id ⟨sender, request⟩) := by
  have hfresh : id ∉ requestIds ops := by
    rw [← h.issued, hnew]
    exact Bool.false_ne_true
  -- an id that was never given out was not delivered either
  have huntaken : id ∉ takenIds ops := by
    intro htaken
    obtain ⟨consumer, subId, numWords, hop⟩ := mem_takenIds.mp htaken
    obtain ⟨asked, hmem, -⟩ := h.requested_of_taken hop
    exact hfresh (mem_requestIds.mpr ⟨_, _, hmem⟩)
  refine h.extend (fun n => ?_) (fun n p => ?_) ?_ ?_ (fun _ _ _ _ hop => nomatch hop) ?_
    fun hbusy => absurd (h.not_inDelivery hfree) hbusy
  · rw [addRequest_issued, requestIds_request, List.mem_append, List.mem_singleton]
    split
    · next hn => exact iff_of_true rfl (.inr hn)
    · next hn => exact (h.issued n).trans (or_iff_left hn).symm
  · rw [addRequest_requests, takenIds_request, List.mem_append, List.mem_singleton]
    split
    · next hn =>
      subst hn
      constructor
      · intro hp
        cases hp
        exact ⟨.inr rfl, huntaken⟩
      · rintro ⟨hmem | hop, -⟩
        · exact absurd (mem_requestIds.mpr ⟨_, _, hmem⟩) hfresh
        · cases hop
          rfl
    · next hn =>
      rw [h.pending]
      refine and_congr_left fun _ => (or_iff_left fun hop => ?_).symm
      cases hop
      exact hn rfl
  · rw [requestIds_request]
    exact List.nodup_append.mpr ⟨h.requested_once, List.nodup_singleton _, fun n hmem _ hlast =>
      List.mem_singleton.mp hlast ▸ ne_of_mem_of_not_mem hmem hfresh⟩
  · rw [takenIds_request]
    exact h.taken_once
  · rw [inDelivery_request]
    exact hfree

theorem add_take {pending : Pending} (h : Tracks ops v) (hfree : v.reentrancyLock = false)
    (hopen : v.requests id = some pending) :
    Tracks (ops ++ [.take id pending.sender pending.request.subId pending.request.numWords])
      (v.removeRequest id) := by
  obtain ⟨hasked, huntaken⟩ := (h.pending id pending).mp hopen
  refine h.extend (fun n => ?_) (fun n p => ?_) ?_ ?_ (fun _ _ _ _ hop => ?_) ?_
    fun hbusy => absurd (h.not_inDelivery hfree) hbusy
  · rw [removeRequest_issued, requestIds_take]
    exact h.issued n
  · rw [removeRequest_requests, takenIds_take, List.mem_append, List.mem_singleton, List.mem_append,
      List.mem_singleton, or_iff_left (nofun : .request p.sender p.request n ≠ Op.take ..)]
    split
    · next hn => exact iff_of_false nofun fun hboth => hboth.2 (.inr hn)
    · next hn => rw [h.pending, or_iff_left hn]
  · rw [requestIds_take]
    exact h.requested_once
  · rw [takenIds_take]
    exact List.nodup_append.mpr ⟨h.taken_once, List.nodup_singleton _, fun n hmem _ hlast =>
      List.mem_singleton.mp hlast ▸ ne_of_mem_of_not_mem hmem huntaken⟩
  · cases hop
    exact ⟨pending.request, hasked, rfl, rfl⟩
  · rw [inDelivery_take]
    rfl

theorem add_finish (h : Tracks ops v) :
    Tracks (ops ++ [.finish]) { v with reentrancyLock := false } := by
  refine h.extend (fun n => ?_) (fun n p => ?_) ?_ ?_ (fun _ _ _ _ hop => nomatch hop) ?_
    fun _ => rfl
  · rw [requestIds_finish]
    exact h.issued n
  · rw [takenIds_finish, List.mem_append, List.mem_singleton,
      or_iff_left (nofun : .request p.sender p.request n ≠ Op.finish)]
    exact h.pending n p
  · rw [requestIds_finish]
    exact h.requested_once
  · rw [takenIds_finish]
    exact h.taken_once
  · rw [inDelivery_finish]
    rfl

theorem step {op : Op} (h : Tracks ops v) (hstep : Step v op v') : Tracks (ops ++ [op]) v' := by
  cases hstep with
  | request hrequest =>
    obtain ⟨hfree, _, hid, hnew, rfl⟩ := requestRandomWords_ok.mp hrequest
    cases hid
    exact h.add_request hfree hnew
  | take htake =>
    obtain ⟨hfree, hopen, rfl⟩ := takeRequest_ok.mp htake
    exact h.add_take hfree hopen
  | finish hlock hfinish =>
    obtain ⟨-, rfl⟩ := finish_ok.mp hfinish
    exact h.add_finish

/-! ## Requests that wait -/

/-- Deliveries on a subscription are of requests on it. -/
theorem taken_subset (h : Tracks ops v) :
    takenIds (about consumer subId ops) ⊆ requestIds (about consumer subId ops) := by
  intro n hn
  obtain ⟨numWords, hop⟩ := mem_takenIds_about.mp hn
  obtain ⟨request, hmem, hsub, -⟩ := h.requested_of_taken hop
  exact mem_requestIds_about.mpr ⟨request, hmem, hsub⟩

theorem taken_le_requested (h : Tracks ops v) :
    (takenIds (about consumer subId ops)).length ≤
      (requestIds (about consumer subId ops)).length := by
  have hfew : (takenIds (about consumer subId ops)).Sublist (takenIds ops) :=
    List.filter_sublist.filterMap _
  exact ((h.taken_once.sublist hfew).subperm h.taken_subset).length_le

/-- As long as one of them waits, there are fewer deliveries than requests. -/
theorem taken_lt_requested {request : RandomWordsRequest} (h : Tracks ops v)
    (hop : .request consumer request id ∈ ops) (huntaken : id ∉ takenIds ops) :
    (takenIds (about consumer request.subId ops)).length <
      (requestIds (about consumer request.subId ops)).length := by
  have hfew : (takenIds (about consumer request.subId ops)).Sublist (takenIds ops) :=
    List.filter_sublist.filterMap _
  -- with the request that waits there are still no more ids than were requested
  have hnodup : (id :: takenIds (about consumer request.subId ops)).Nodup :=
    List.nodup_cons.mpr ⟨fun hmem => huntaken (hfew.subset hmem), h.taken_once.sublist hfew⟩
  have hsubset : id :: takenIds (about consumer request.subId ops) ⊆
      requestIds (about consumer request.subId ops) :=
    List.cons_subset.mpr ⟨mem_requestIds_about.mpr ⟨request, hop, rfl⟩, h.taken_subset⟩
  exact (hnodup.subperm hsubset).length_le

/-- A subscription on which nothing was requested is not in the history. -/
theorem about_of_unasked (h : Tracks ops v) (a : Address) (s : Nat)
    (hnone : ∀ a' request id, .request a' request id ∈ ops → request.subId ≠ s) :
    requestIds (about a s ops) = [] ∧ takenIds (about a s ops) = [] ∧
      inDelivery ops ≠ some (a, s) := by
  have hrequested : requestIds (about a s ops) = [] := by
    refine List.eq_nil_iff_forall_not_mem.mpr fun n hn => ?_
    obtain ⟨request, hop, hsub⟩ := mem_requestIds_about.mp hn
    exact hnone _ _ _ hop hsub
  refine ⟨hrequested, List.subset_nil.mp (hrequested ▸ h.taken_subset), fun hbusy => ?_⟩
  obtain ⟨before, id, numWords, rfl⟩ := taken_of_inDelivery hbusy
  obtain ⟨request, hop, hsub, -⟩ :=
    h.requested_of_taken (List.mem_append_right _ (List.mem_singleton_self _))
  exact hnone _ _ _ hop hsub

end Tracks

/-- Every run of the coordinator delivers each request at most once, and whole. -/
theorem tracks_run {ops : List Op} {v : VRFCoordinator} (hrun : Run Step new ops v) :
    Tracks ops v := by
  induction hrun with
  | nil => exact .of_new
  | snoc _ hstep ih => exact ih.step hstep

end AdvFoundry.VRFCoordinator
