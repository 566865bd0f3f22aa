import AdvFoundry.Rebase.Accounting

/-!
# Rates and settlement times

`s_IntrestRateToUser` is written by `mint`, with the global rate, and by the two
transfers, which give a receiver without a rate the payer's. The timestamp of an
account is written whenever it is settled, and that is before its rate or its
principal is.

`exec_written` says what a call writes to rates and timestamps. The rest follows
from it: the bounds on the rates and the fact about the timestamps are one
invariant (`Disciplined`), since a rate is only as good as the account it was
copied from (`rate_discipline`).
-/

namespace AdvFoundry.Rebase

open Function

/-- The rate of `dst` after a transfer from `src`: zero counts as no rate. -/
def RebaseToken.inherited (s : RebaseToken) (src dst : Address) : Nat :=
  if s.intrestRateToUser dst = 0 then s.intrestRateToUser src else s.intrestRateToUser dst

/-- The rate of `user` after a call. -/
def RebaseOp.rateAfter (c : Ctx) (s : RebaseToken) (user : Address) : RebaseOp → Nat
  | mint dst _ => if user = dst then s.intrestRate else s.intrestRateToUser user
  | transfer dst _ => if user = dst then s.inherited c.sender dst else s.intrestRateToUser user
  | transferFrom src dst _ => if user = dst then s.inherited src dst else s.intrestRateToUser user
  | _ => s.intrestRateToUser user

namespace RateLemmas

open RebaseToken AccountingLemmas

variable {s s' : RebaseToken} {c : Ctx} {T : Nat} {user src dst : Address}

/-! ## What a call writes -/

/-- A call at `T` settles its parties and no other account, sets the rates to
`rate`, and does not raise the global one. -/
structure Written (T : Nat) (party : Address → Prop) (rate : Address → Nat)
    (s s' : RebaseToken) : Prop where
  global_le : s'.intrestRate ≤ s.intrestRate
  rate_eq : ∀ a, s'.intrestRateToUser a = rate a
  parties : ∀ a, party a → s.lastUpdatedTimeStampToUser a ≤ T ∧ s'.lastUpdatedTimeStampToUser a = T
  others : ∀ a, ¬ party a → s'.erc20.balances a = s.erc20.balances a ∧
    s'.lastUpdatedTimeStampToUser a = s.lastUpdatedTimeStampToUser a

theorem mint_written {amount : Nat} {u : Unit} (h : mint c dst amount s = .ok (u, s')) :
    Written c.timestamp (fun a => a = dst)
      (fun a => if a = dst then s.intrestRate else s.intrestRateToUser a) s s' := by
  simp only [mint, Tx.bind_ok, onlyMinter_ok, amountValid_ok, Tx.modify_ok, super_ok,
    ERC20._mint_ok] at h
  obtain ⟨_, s, ⟨-, rfl⟩, _, _, ⟨-, rfl⟩, _, s₁, hsettle, _, _, rfl, t, ⟨-, _, rfl⟩, rfl⟩ := h
  obtain ⟨hlast, -, _, rfl⟩ := settle_ok hsettle
  refine ⟨Nat.le_refl _, fun a => ?_, ?_, fun a ha => ?_⟩
  · simp [setRate, settled, update_apply]
  · rintro a rfl
    exact ⟨hlast, by simp [setRate, settled]⟩
  · simp [setRate, settled, credit_of_ne ha, ha]

theorem burn_written {amount : Nat} {u : Unit} (h : burn c src amount s = .ok (u, s')) :
    Written c.timestamp (fun a => a = src) s.intrestRateToUser s s' := by
  simp only [burn, Tx.bind_ok, onlyMinter_ok, amountValid_ok, super_ok, ERC20._burn_ok] at h
  obtain ⟨_, s, ⟨-, rfl⟩, _, _, ⟨-, rfl⟩, _, _, hresolve, _, s₁, hsettle, t, ⟨-, _, rfl⟩, rfl⟩ := h
  obtain ⟨-, rfl⟩ := resolve_ok hresolve
  obtain ⟨hlast, -, _, rfl⟩ := settle_ok hsettle
  refine ⟨Nat.le_refl _, fun a => rfl, ?_, fun a ha => ?_⟩
  · rintro a rfl
    exact ⟨hlast, by simp [settled]⟩
  · simp [settled, credit_of_ne ha, debit_of_ne ha, ha]

theorem inherit_rate {a : Address} :
    (if s.intrestRateToUser dst = 0 then s.setRate dst (s.intrestRateToUser src)
      else s).intrestRateToUser a =
      if a = dst then s.inherited src dst else s.intrestRateToUser a := by
  unfold inherited
  by_cases hrate : s.intrestRateToUser dst = 0
  · simp [hrate, setRate, update_apply]
  · rw [if_neg hrate, if_neg hrate]
    split
    · next ha => rw [ha]
    · rfl

/-- The two transfers write the same up to their last step. -/
theorem settleParties_written {value r : Nat} (h : settleParties c src dst value s = .ok (r, s')) :
    Written c.timestamp (fun a => a = src ∨ a = dst)
      (fun a => if a = dst then s.inherited src dst else s.intrestRateToUser a) s s' := by
  have hparties := (settleParties_ok h).1
  simp only [settleParties, Tx.bind_ok, Tx.modify_ok] at h
  obtain ⟨_, s₁, hsrc, _, s₂, hdst, _, s₃, rfl, h⟩ := h
  obtain ⟨-, rfl⟩ := resolve_ok h
  obtain ⟨hlastSrc, -, _, rfl⟩ := settle_ok hsrc
  obtain ⟨hlastDst, -, _, rfl⟩ := settle_ok hdst
  refine ⟨?_, fun a => inherit_rate, fun a ha => ⟨?_, hparties.settled a ha⟩, fun a ha => ?_⟩
  · split <;> exact Nat.le_refl _
  · -- the receiver was settled after the payer, which may be the same account
    rcases ha with rfl | rfl
    · exact hlastSrc
    · rw [settled_last] at hlastDst
      split at hlastDst
      · next heq =>
        rw [heq]
        exact hlastSrc
      · exact hlastDst
  · obtain ⟨hbal, -, hlast⟩ := hparties.rest a ha
    exact ⟨hbal, hlast⟩

/-- A write to the principal balances of the parties keeps what is written. -/
theorem Written.write {party : Address → Prop} {rate : Address → Nat} {t : ERC20}
    (h : Written T party rate s s') (ht : ∀ a, ¬ party a → t.balances a = s'.erc20.balances a) :
    Written T party rate s { s' with erc20 := t } :=
  ⟨h.global_le, h.rate_eq, h.parties, fun a ha => ⟨(ht a ha).trans (h.others a ha).1,
    (h.others a ha).2⟩⟩

theorem transfer_written {value : Nat} {r : Bool} (h : transfer c dst value s = .ok (r, s')) :
    Written c.timestamp (fun a => a = c.sender ∨ a = dst)
      (fun a => if a = dst then s.inherited c.sender dst else s.intrestRateToUser a) s s' := by
  simp only [transfer, Tx.bind_ok, super_ok, ERC20.transfer_ok] at h
  obtain ⟨_, s₁, hsettle, t, ⟨-, -, -, _, rfl⟩, rfl⟩ := h
  refine (settleParties_written hsettle).write fun a ha => ?_
  rw [not_or] at ha
  rw [ERC20.move_balances, credit_of_ne ha.2, debit_of_ne ha.1]

theorem transferFrom_written {value : Nat} {r : Bool}
    (h : transferFrom c src dst value s = .ok (r, s')) :
    Written c.timestamp (fun a => a = src ∨ a = dst)
      (fun a => if a = dst then s.inherited src dst else s.intrestRateToUser a) s s' := by
  simp only [transferFrom, Tx.bind_ok, super_ok, ERC20.transferFrom_ok] at h
  obtain ⟨_, s₁, hsettle, t, ⟨-, -, -, -, _, rfl⟩, rfl⟩ := h
  refine (settleParties_written hsettle).write fun a ha => ?_
  rw [not_or] at ha
  rw [ERC20.move_balances, credit_of_ne ha.2, debit_of_ne ha.1, ERC20.spend_balances]

/-- A call that settles nobody. -/
theorem written_of_frame (hglobal : s'.intrestRate ≤ s.intrestRate)
    (hrate : s'.intrestRateToUser = s.intrestRateToUser)
    (hbal : s'.erc20.balances = s.erc20.balances)
    (hlast : s'.lastUpdatedTimeStampToUser = s.lastUpdatedTimeStampToUser) :
    Written T (fun _ => False) s.intrestRateToUser s s' :=
  ⟨hglobal, fun a => congrFun hrate a, fun _ h => h.elim,
    fun a _ => ⟨congrFun hbal a, congrFun hlast a⟩⟩

end RateLemmas

open AccountingLemmas RateLemmas

theorem exec_written {c : Ctx} {op : RebaseOp} {s s' : RebaseToken}
    (h : op.exec c s = .ok ((), s')) :
    Written c.timestamp (fun a => op.party c a) (fun a => op.rateAfter c s a) s s' := by
  cases op with
  | mint d a => exact mint_written h
  | burn f a => exact burn_written h
  | transfer d v =>
    simp only [RebaseOp.exec, Tx.bind_ok, Tx.pure_ok] at h
    obtain ⟨_, _, htransfer, -, rfl⟩ := h
    exact transfer_written htransfer
  | transferFrom f d v =>
    simp only [RebaseOp.exec, Tx.bind_ok, Tx.pure_ok] at h
    obtain ⟨_, _, htransfer, -, rfl⟩ := h
    exact transferFrom_written htransfer
  | approve p v =>
    simp only [RebaseOp.exec, RebaseToken.approve, Tx.bind_ok, super_ok, ERC20.approve_ok,
      Tx.pure_ok] at h
    obtain ⟨_, _, ⟨_, ⟨-, -, -, rfl⟩, rfl⟩, -, rfl⟩ := h
    exact written_of_frame (Nat.le_refl _) rfl rfl rfl
  | setIntrestRate r =>
    simp only [RebaseOp.exec, RebaseToken.setIntrestRate, Tx.bind_ok, onlyOwner_ok, Tx.get_ok,
      Tx.revertIf_ok, Tx.modify_ok] at h
    obtain ⟨_, s, ⟨-, rfl⟩, _, _, ⟨rfl, rfl⟩, _, _, ⟨hlower, rfl⟩, rfl⟩ := h
    exact written_of_frame (Nat.not_lt.mp hlower) rfl rfl rfl
  | grantMintAndBurnRole u =>
    simp only [RebaseOp.exec, RebaseToken.grantMintAndBurnRole, Tx.bind_ok, onlyOwner_ok,
      Tx.modify_ok] at h
    obtain ⟨_, s, ⟨-, rfl⟩, rfl⟩ := h
    exact written_of_frame (Nat.le_refl _) rfl rfl rfl
  | renounceRole u =>
    simp only [RebaseOp.exec, RebaseToken.renounceRole, Tx.bind_ok, Tx.revertIf_ok, Tx.modify_ok] at h
    obtain ⟨_, s, ⟨-, rfl⟩, rfl⟩ := h
    exact written_of_frame (Nat.le_refl _) rfl rfl rfl
  | transferOwnership o | renounceOwnership =>
    obtain ⟨_, -, rfl⟩ := superOwnable_ok.mp h
    exact written_of_frame (Nat.le_refl _) rfl rfl rfl

/-- An account that is no party of a call keeps its rate. -/
theorem rateAfter_of_not_party {c : Ctx} {op : RebaseOp} {s : RebaseToken} {user : Address}
    (h : ¬ op.party c user) : op.rateAfter c s user = s.intrestRateToUser user := by
  cases op with
  | mint d a => exact if_neg h
  | transfer d v => exact if_neg fun hd => h (.inr hd)
  | transferFrom f d v => exact if_neg fun hd => h (.inr hd)
  | burn f a | approve p v | setIntrestRate r | grantMintAndBurnRole u | renounceRole u
  | transferOwnership o | renounceOwnership => rfl

/-! ## The token in time -/

/-- The token, and the time of the last block. -/
structure Timed where
  token : RebaseToken
  now : Nat

/-- A call in the same block or in a later one. -/
def Timed.next (x : Timed) (l : Ctx × RebaseOp) : Option Timed :=
  if x.now ≤ l.1.timestamp then
    match l.2.exec l.1 x.token with
    | .ok (_, s) => some ⟨s, l.1.timestamp⟩
    | .error _ => none
  else
    none

def Timed.Step (x : Timed) (l : Ctx × RebaseOp) (x' : Timed) : Prop := x.next l = some x'

/-- The rates and the timestamps of a token of which `5 * 10 ^ 10` was the first
global rate. -/
structure Disciplined (x : Timed) : Prop where
  clock : 0 < x.now
  global_le : x.token.intrestRate ≤ 5 * 10 ^ 10
  rates : ∀ u, x.token.intrestRateToUser u = 0 ∨
    x.token.intrestRate ≤ x.token.intrestRateToUser u ∧ x.token.intrestRateToUser u ≤ 5 * 10 ^ 10
  updated : ∀ u, x.token.intrestRateToUser u ≠ 0 ∨ x.token.erc20.balances u ≠ 0 →
    x.token.lastUpdatedTimeStampToUser u ≠ 0
  past : ∀ u, x.token.lastUpdatedTimeStampToUser u ≤ x.now

namespace RateLemmas

variable {x x' : Timed} {c : Ctx} {op : RebaseOp} {s : RebaseToken}

theorem step_ok (h : Timed.Step x (c, op) x') :
    x.now ≤ c.timestamp ∧ op.exec c x.token = .ok ((), x'.token) ∧ x'.now = c.timestamp := by
  unfold Timed.Step Timed.next at h
  split at h
  · next htime =>
    split at h
    · next hexec =>
      cases h
      exact ⟨htime, hexec, rfl⟩
    · cases h
  · cases h

/-- Every rate after a call was a rate before it, of an account or the global one. -/
theorem rateAfter_cases (c : Ctx) (op : RebaseOp) (s : RebaseToken) (user : Address) :
    op.rateAfter c s user = s.intrestRate ∨
      ∃ owner, op.rateAfter c s user = s.intrestRateToUser owner := by
  have hinherited : ∀ src dst, ∃ owner, s.inherited src dst = s.intrestRateToUser owner := by
    intro src dst
    unfold RebaseToken.inherited
    split
    · exact ⟨src, rfl⟩
    · exact ⟨dst, rfl⟩
  cases op with
  | mint d a =>
    simp only [RebaseOp.rateAfter]
    split
    · exact .inl rfl
    · exact .inr ⟨user, rfl⟩
  | transfer d v | transferFrom f d v =>
    simp only [RebaseOp.rateAfter]
    split
    · exact .inr (hinherited _ d)
    · exact .inr ⟨user, rfl⟩
  | burn f a | approve p v | setIntrestRate r | grantMintAndBurnRole u | renounceRole u
  | transferOwnership o | renounceOwnership => exact .inr ⟨user, rfl⟩

theorem disciplined_step (hx : Disciplined x) (h : Timed.Step x (c, op) x') : Disciplined x' := by
  obtain ⟨htime, hexec, hnow⟩ := step_ok h
  have hwritten := exec_written hexec
  have hclock : 0 < c.timestamp := Nat.lt_of_lt_of_le hx.clock htime
  have hglobal := hwritten.global_le
  refine ⟨hnow ▸ hclock, Nat.le_trans hglobal hx.global_le, fun u => ?_, fun u hu => ?_,
    fun u => ?_⟩
  · rw [hwritten.rate_eq]
    rcases rateAfter_cases c op x.token u with hrate | ⟨owner, hrate⟩
    · rw [hrate]
      exact .inr ⟨hglobal, hx.global_le⟩
    · rw [hrate]
      exact (hx.rates owner).imp id fun hbounds => ⟨Nat.le_trans hglobal hbounds.1, hbounds.2⟩
  · by_cases hparty : op.party c u
    · rw [(hwritten.parties u hparty).2]
      exact hclock.ne'
    · obtain ⟨hbal, hlast⟩ := hwritten.others u hparty
      rw [hwritten.rate_eq, rateAfter_of_not_party hparty, hbal] at hu
      rw [hlast]
      exact hx.updated u hu
  · rw [hnow]
    by_cases hparty : op.party c u
    · exact Nat.le_of_eq (hwritten.parties u hparty).2
    · rw [(hwritten.others u hparty).2]
      exact Nat.le_trans (hx.past u) htime

theorem disciplined_run {labels : List (Ctx × RebaseOp)} (hx : Disciplined x)
    (hrun : Run Timed.Step x labels x') : Disciplined x' :=
  Run.invariant (C := fun _ => True) (fun _ _ _ _ hx h => disciplined_step hx h) hrun
    (fun _ _ => trivial) hx

theorem disciplined_constructor {sender : Address} {time : Nat}
    (h : constructor sender = .ok s) (htime : 0 < time) : Disciplined ⟨s, time⟩ := by
  simp only [constructor, Result.bind_ok, Result.pure_ok] at h
  obtain ⟨_, -, rfl⟩ := h
  refine ⟨htime, Nat.le_refl _, fun u => .inl rfl, fun u hu => ?_, fun u => Nat.zero_le _⟩
  rcases hu with hu | hu <;> exact absurd rfl hu

theorem global_run {labels : List (Ctx × RebaseOp)} (hrun : Run Timed.Step x labels x') :
    x'.token.intrestRate ≤ x.token.intrestRate :=
  Run.invariant (I := fun y => y.token.intrestRate ≤ x.token.intrestRate) (C := fun _ => True)
    (fun _ _ _ _ hle h => Nat.le_trans (exec_written (step_ok h).2.1).global_le hle) hrun
    (fun _ _ => trivial) (Nat.le_refl _)

/-- While accounts are settled at `T`, no timestamp is after `T`. -/
theorem past_settled {T : Nat} (users : List Address) {s s' : RebaseToken}
    (hs : ∀ u, s.lastUpdatedTimeStampToUser u ≤ T)
    (h : users.forM (RebaseToken._settlePreviousIntrestAccrued T) s = .ok ((), s')) :
    ∀ u, s'.lastUpdatedTimeStampToUser u ≤ T := by
  induction users generalizing s with
  | nil =>
    obtain ⟨-, rfl⟩ := Tx.pure_ok.mp h
    exact hs
  | cons user users ih =>
    obtain ⟨_, s₁, hsettle, hrest⟩ := Tx.bind_ok.mp h
    obtain ⟨-, -, _, rfl⟩ := settle_ok hsettle
    refine ih (fun u => ?_) hrest
    rw [settled_last]
    split
    · exact Nat.le_refl _
    · exact hs u

end RateLemmas

/-- In every state the token can reach: the global rate never rises and is at
most `5 * 10 ^ 10`; a rate is zero, or between the global one and that bound; an
account with a rate or a principal was updated at a time that is not zero and
not in the future. So to mint does not raise a rate, and at any later time,
whichever accounts a call has settled before, no subtraction of a settlement
underflows. -/
theorem rate_discipline {sender : Address} {s : RebaseToken} {time : Nat} {x : Timed}
    {labels : List (Ctx × RebaseOp)} (hbuilt : constructor sender = .ok s) (htime : 0 < time)
    (hrun : Run Timed.Step ⟨s, time⟩ labels x) :
    (∀ labels' x', Run Timed.Step x labels' x' → x'.token.intrestRate ≤ x.token.intrestRate) ∧
    x.token.intrestRate ≤ 5 * 10 ^ 10 ∧
    (∀ u, x.token.intrestRateToUser u = 0 ∨ x.token.intrestRate ≤ x.token.intrestRateToUser u ∧
      x.token.intrestRateToUser u ≤ 5 * 10 ^ 10) ∧
    (∀ u, x.token.intrestRateToUser u ≠ 0 ∨ x.token.erc20.balances u ≠ 0 →
      x.token.lastUpdatedTimeStampToUser u ≠ 0 ∧ x.token.lastUpdatedTimeStampToUser u ≤ x.now) ∧
    (∀ c dst amount s', RebaseToken.mint c dst amount x.token = .ok ((), s') →
      x.token.intrestRateToUser dst ≠ 0 →
      s'.intrestRateToUser dst ≤ x.token.intrestRateToUser dst) ∧
    (∀ T, x.now ≤ T → ∀ (users : List Address) s',
      users.forM (RebaseToken._settlePreviousIntrestAccrued T) x.token = .ok ((), s') →
      ∀ u, s'.lastUpdatedTimeStampToUser u ≤ T ∧
        ∀ current, s'.balanceOf T u = .ok current → s'.erc20.balances u ≤ current) := by
  have hx := disciplined_run (disciplined_constructor hbuilt htime) hrun
  refine ⟨fun _ _ h => global_run h, hx.global_le, hx.rates, fun u hu => ⟨hx.updated u hu, hx.past u⟩,
    fun c dst amount s' hmint hrate => ?_, fun T hT users s' hsettle u => ⟨?_, ?_⟩⟩
  · rw [(mint_written hmint).rate_eq, if_pos rfl]
    exact ((hx.rates dst).resolve_left hrate).1
  · exact past_settled users (fun u => Nat.le_trans (hx.past u) hT) hsettle u
  · intro current hcurrent
    rw [(balanceOf_ok hcurrent).1]
    exact balances_le_visible

/-- The token as deployed by `9`, before any grant. -/
def freshToken : RebaseToken := { sampleToken with minters := fun _ => false }

theorem freshToken_built : constructor 9 = .ok freshToken := rfl

/-- Account `1` mints to `7`, the rate is cut to a fifth, and `7` sends half of
its tokens to `8`. -/
def cutRateLabels : List (Ctx × RebaseOp) :=
  [(⟨9, 1000⟩, .grantMintAndBurnRole 1), (⟨1, 1000⟩, .mint 7 (10 ^ 20)),
    (⟨9, 2000⟩, .setIntrestRate (10 ^ 10)), (⟨7, 2000⟩, .transfer 8 (5 * 10 ^ 19))]

/-- The receiver has the old rate of the payer, and a further mint would not
raise it. -/
theorem rate_discipline_after_cut :
    ∃ x, Run Timed.Step ⟨freshToken, 1000⟩ cutRateLabels x ∧
      x.token.intrestRate = 10 ^ 10 ∧ x.token.intrestRateToUser 8 = 5 * 10 ^ 10 ∧
      x.token.lastUpdatedTimeStampToUser 8 ≤ x.now ∧
      ∀ c amount s', RebaseToken.mint c 8 amount x.token = .ok ((), s') →
        s'.intrestRateToUser 8 ≤ 5 * 10 ^ 10 := by
  obtain ⟨x, hrun, hglobal, hrate⟩ : ∃ x, Run Timed.Step ⟨freshToken, 1000⟩ cutRateLabels x ∧
      x.token.intrestRate = 10 ^ 10 ∧ x.token.intrestRateToUser 8 = 5 * 10 ^ 10 :=
    ⟨_, Run.of_foldlM (fun _ _ _ h => h) (Option.some_get (by decide +kernel)).symm,
      by decide +kernel, by decide +kernel⟩
  have hnonzero : x.token.intrestRateToUser 8 ≠ 0 := by
    rw [hrate]
    decide
  obtain ⟨-, -, -, hupdated, hmint, -⟩ := rate_discipline freshToken_built (by decide) hrun
  refine ⟨x, hrun, hglobal, hrate, (hupdated 8 (.inl hnonzero)).2, fun c amount s' h => ?_⟩
  rw [← hrate]
  exact hmint c 8 amount s' h hnonzero

end AdvFoundry.Rebase
