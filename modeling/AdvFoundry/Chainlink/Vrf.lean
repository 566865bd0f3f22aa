import AdvFoundry.Evm.Tx
import Mathlib.Logic.Function.Basic

/-!
# Chainlink's VRF v2.5 coordinator

What a consumer can tell of `VRFCoordinatorV2_5.sol` (vendored under
`FundMe/lib`): each accepted request gets an id that was never given out before;
a delivery removes the request first, holds the lock during the callback so that
no request or other delivery gets in, and goes on whether or not the callback
reverted.

Left to the environment are the checks of subscription and limits, the hash that
makes the id, the proof that makes the words, and the charge at the end.
-/

namespace AdvFoundry

open Function

/-- `VRFV2PlusClient.RandomWordsRequest`. -/
structure RandomWordsRequest where
  keyHash : Nat
  subId : Nat
  requestConfirmations : Nat
  callbackGasLimit : Nat
  numWords : Nat
  nativePayment : Bool

/-- A request the coordinator has committed to, with the consumer who made it. -/
structure Pending where
  sender : Address
  request : RandomWordsRequest

structure VRFCoordinator where
  requests : Nat → Option Pending
  issued : Nat → Bool
  reentrancyLock : Bool

inductive VrfError
  | reentrant
  | refused
  | noCorrespondingRequest
  | insufficientBalance
  deriving DecidableEq

namespace VRFCoordinator

/-- The write of `requestRandomWords`. -/
def addRequest (v : VRFCoordinator) (requestId : Nat) (pending : Pending) : VRFCoordinator :=
  { v with
    requests := update v.requests requestId (some pending)
    issued := update v.issued requestId true }

/-- `delete s_requestCommitments[requestId]`, and the lock. -/
def removeRequest (v : VRFCoordinator) (requestId : Nat) : VRFCoordinator :=
  { v with requests := update v.requests requestId none, reentrancyLock := true }

/-- A request of `sender`. `requestId` is the id it would get, or `none` when the
coordinator does not accept it. -/
def requestRandomWords (sender : Address) (request : RandomWordsRequest) (requestId : Option Nat) :
    Tx VrfError VRFCoordinator Unit := do
  Tx.tryModify fun v =>
    if v.reentrancyLock then .error (.error .reentrant)
    else
      match requestId with
      | none => .error (.error .refused)
      | some id =>
        if v.issued id then .error (.error .refused)
        else .ok (v.addRequest id ⟨sender, request⟩)

/-- The first half of `fulfillRandomWords`: the request is removed and the lock
taken. -/
def takeRequest (requestId : Nat) : Tx VrfError VRFCoordinator Pending := do
  let v ← Tx.get
  Tx.revertIf (v.reentrancyLock = true) .reentrant
  match v.requests requestId with
  | none => Tx.view fun _ => .error (.error .noCorrespondingRequest)
  | some pending =>
    Tx.modify fun v => v.removeRequest requestId
    pure pending

/-- The second half: the lock is released and the subscription charged. -/
def finish (charged : Bool) : Tx VrfError VRFCoordinator Unit := do
  Tx.modify fun v => { v with reentrancyLock := false }
  Tx.revertIf (charged = false) .insufficientBalance

/-- The request `requestId` of `consumer` waits for its delivery. -/
def Outstanding (v : VRFCoordinator) (consumer : Address) (requestId : Nat) : Prop :=
  ∃ request, v.requests requestId = some ⟨consumer, request⟩

variable {v v' : VRFCoordinator} {sender : Address} {request : RandomWordsRequest} {u : Unit}

theorem requestRandomWords_ok {requestId : Option Nat} :
    requestRandomWords sender request requestId v = .ok (u, v') ↔
      v.reentrancyLock = false ∧ ∃ id, requestId = some id ∧ v.issued id = false ∧
        v' = v.addRequest id ⟨sender, request⟩ := by
  simp only [requestRandomWords, Tx.tryModify_ok]
  cases hl : v.reentrancyLock with
  | true => simp
  | false =>
    cases requestId with
    | none => simp
    | some id => cases hi : v.issued id <;> simp [hi, @eq_comm _ v']

theorem takeRequest_ok {requestId : Nat} {pending : Pending} :
    takeRequest requestId v = .ok (pending, v') ↔
      v.reentrancyLock = false ∧ v.requests requestId = some pending ∧
        v' = v.removeRequest requestId := by
  simp only [takeRequest, Tx.bind_ok, Tx.get_ok, Tx.revertIf_ok, Bool.not_eq_true]
  constructor
  · rintro ⟨_, _, ⟨rfl, rfl⟩, _, v, ⟨hl, rfl⟩, h⟩
    cases hp : v.requests requestId with
    | none => simp [hp] at h
    | some p =>
      simp only [hp, Tx.bind_ok, Tx.modify_ok, Tx.pure_ok] at h
      obtain ⟨_, _, rfl, rfl, rfl⟩ := h
      exact ⟨hl, rfl, rfl⟩
  · rintro ⟨hl, hp, rfl⟩
    refine ⟨v, v, ⟨rfl, rfl⟩, (), v, ⟨hl, rfl⟩, ?_⟩
    rw [hp]
    simp

theorem finish_ok {charged : Bool} :
    finish charged v = .ok (u, v') ↔
      charged = true ∧ v' = { v with reentrancyLock := false } := by
  simp [finish]

/-! ## The open requests after a write -/

variable {id n : Nat} {pending : Pending}

@[simp] theorem addRequest_requests :
    (v.addRequest id pending).requests n = if n = id then some pending else v.requests n := by
  simp [addRequest, update_apply]

@[simp] theorem addRequest_issued :
    (v.addRequest id pending).issued n = if n = id then true else v.issued n := by
  simp [addRequest, update_apply]

@[simp] theorem removeRequest_requests :
    (v.removeRequest id).requests n = if n = id then none else v.requests n := by
  simp [removeRequest, update_apply]

@[simp] theorem removeRequest_issued : (v.removeRequest id).issued n = v.issued n := rfl

/-- Every open request has an id that is on record as given out. -/
theorem issued_addRequest (h : ∀ n, v.requests n ≠ none → v.issued n = true) :
    ∀ n, (v.addRequest id pending).requests n ≠ none → (v.addRequest id pending).issued n = true := by
  intro n
  rw [addRequest_requests, addRequest_issued]
  split
  · simp
  · exact h n

theorem issued_removeRequest (h : ∀ n, v.requests n ≠ none → v.issued n = true) :
    ∀ n, (v.removeRequest id).requests n ≠ none → (v.removeRequest id).issued n = true := by
  intro n
  rw [removeRequest_requests, removeRequest_issued]
  split
  · simp
  · exact h n

/-- A request of another consumer takes an id that no open request has. -/
theorem own_addRequest {consumer : Address} {own : RandomWordsRequest} (hsender : sender ≠ consumer)
    (h : ∀ n, v.requests n ≠ none → v.issued n = true) (hid : v.issued id = false) :
    (v.addRequest id ⟨sender, request⟩).requests n = some ⟨consumer, own⟩ ↔
      v.requests n = some ⟨consumer, own⟩ := by
  have hfree : v.requests id = none := by
    by_contra hopen
    rw [h id hopen] at hid
    cases hid
  rw [addRequest_requests]
  split
  · next hn => simp [hn, hfree, hsender]
  · rfl

theorem own_removeRequest {consumer : Address} {own : RandomWordsRequest}
    (hsender : sender ≠ consumer) (hpending : v.requests id = some ⟨sender, request⟩) :
    (v.removeRequest id).requests n = some ⟨consumer, own⟩ ↔
      v.requests n = some ⟨consumer, own⟩ := by
  rw [removeRequest_requests]
  split
  · next hn => simp [hn, hpending, hsender]
  · rfl

/-- To remove a request leaves only requests there were. -/
theorem of_removeRequest (h : (v.removeRequest id).requests n = some pending) :
    n ≠ id ∧ v.requests n = some pending := by
  rw [removeRequest_requests] at h
  split at h
  · cases h
  · next hn => exact ⟨hn, h⟩

theorem outstanding_addRequest {consumer : Address} :
    (v.addRequest id ⟨sender, request⟩).Outstanding consumer n ↔
      if n = id then sender = consumer else v.Outstanding consumer n := by
  unfold Outstanding
  by_cases hn : n = id <;> simp [hn]

end VRFCoordinator

end AdvFoundry
