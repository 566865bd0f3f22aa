import AdvFoundry.Evm.Run
import AdvFoundry.Rebase.Token

/-!
# Exact accounting at a fixed time

Settling an account mints exactly what its visible balance exceeds its principal
by, and leaves no time for a rate to act on. So at the time of a call, neither a
settlement nor a new rate moves a visible balance, and every call changes the
visible balances by its explicit amount alone (`exact_accounting`).
-/

namespace AdvFoundry.Rebase

open Function

namespace RebaseToken

/-- `balanceOf` as a number: the principal with linear interest, rounded down. -/
def visible (s : RebaseToken) (timestamp : Nat) (user : Address) : Nat :=
  s.erc20.balances user *
    (PRECISION_FACTOR + (timestamp - s.lastUpdatedTimeStampToUser user) * s.intrestRateToUser user) /
    PRECISION_FACTOR

/-- What a payment of `value` by `payer` stands for. -/
def explicitAmount (s : RebaseToken) (timestamp : Nat) (payer : Address) (value : Nat) : Nat :=
  if value = uintMax then s.visible timestamp payer else value

/-- The storage after `_settlePreviousIntrestAccrued`. -/
def settled (s : RebaseToken) (timestamp : Nat) (user : Address)
    (h : s.erc20.totalSupply + (s.visible timestamp user - s.erc20.balances user) < uintSize) :
    RebaseToken :=
  { s with
    erc20 := s.erc20.issue user (s.visible timestamp user - s.erc20.balances user) h
    lastUpdatedTimeStampToUser := update s.lastUpdatedTimeStampToUser user timestamp }

end RebaseToken

/-- What a call takes from the visible balance of `user`. -/
def RebaseOp.paidOut (c : Ctx) (s : RebaseToken) (user : Address) : RebaseOp → Nat
  | burn src a => if user = src then s.explicitAmount c.timestamp src a else 0
  | transfer _ v => if user = c.sender then s.explicitAmount c.timestamp c.sender v else 0
  | transferFrom src _ v => if user = src then s.explicitAmount c.timestamp src v else 0
  | _ => 0

/-- What a call adds to the visible balance of `user`. -/
def RebaseOp.paidIn (c : Ctx) (s : RebaseToken) (user : Address) : RebaseOp → Nat
  | mint dst a => if user = dst then a else 0
  | transfer dst v => if user = dst then s.explicitAmount c.timestamp c.sender v else 0
  | transferFrom src dst v => if user = dst then s.explicitAmount c.timestamp src v else 0
  | _ => 0

/-- The accounts a call settles. -/
def RebaseOp.party (c : Ctx) (user : Address) : RebaseOp → Prop
  | mint dst _ => user = dst
  | burn src _ => user = src
  | transfer dst _ => user = c.sender ∨ user = dst
  | transferFrom src dst _ => user = src ∨ user = dst
  | _ => False

namespace AccountingLemmas

open RebaseToken

variable {s s' : RebaseToken} {c : Ctx} {T : Nat} {a user src dst : Address} {t : ERC20}

/-! ## Visible balances -/

theorem balances_le_visible : s.erc20.balances a ≤ s.visible T a := by
  unfold visible
  rw [Nat.le_div_iff_mul_le (by decide)]
  exact Nat.mul_le_mul_left _ (Nat.le_add_right _ _)

/-- An account settled now shows its principal. -/
theorem visible_of_settled (h : s.lastUpdatedTimeStampToUser a = T) :
    s.visible T a = s.erc20.balances a := by
  simp only [visible, h, Nat.sub_self, Nat.zero_mul, Nat.add_zero]
  exact Nat.mul_div_cancel _ (by decide)

theorem visible_congr (hbal : s'.erc20.balances a = s.erc20.balances a)
    (hrate : s'.intrestRateToUser a = s.intrestRateToUser a)
    (hlast : s'.lastUpdatedTimeStampToUser a = s.lastUpdatedTimeStampToUser a) :
    s'.visible T a = s.visible T a := by
  simp [visible, hbal, hrate, hlast]

theorem balanceOf_congr (hbal : s'.erc20.balances a = s.erc20.balances a)
    (hrate : s'.intrestRateToUser a = s.intrestRateToUser a)
    (hlast : s'.lastUpdatedTimeStampToUser a = s.lastUpdatedTimeStampToUser a) :
    balanceOf T a s' = balanceOf T a s := by
  simp [balanceOf, _growthInPrincipalSinceLasteUpdatedTimeStamp, hbal, hrate, hlast]

/-- When `balanceOf` returns, it returns the visible balance, and the account was
not settled in the future. -/
theorem balanceOf_ok {r : Nat} (h : balanceOf T a s = .ok r) :
    r = s.visible T a ∧ s.lastUpdatedTimeStampToUser a ≤ T := by
  simp only [balanceOf, _growthInPrincipalSinceLasteUpdatedTimeStamp, Result.bind_ok, subU_ok,
    mulU_ok, divU_ok] at h
  obtain ⟨growth, ⟨_, ⟨hlast, rfl⟩, hgrowth⟩, _, ⟨-, rfl⟩, -, rfl⟩ := h
  refine ⟨?_, hlast⟩
  -- without time or without a rate the general formula adds nothing
  have hfactor : growth = PRECISION_FACTOR +
      (T - s.lastUpdatedTimeStampToUser a) * s.intrestRateToUser a := by
    split at hgrowth
    · next h0 =>
      rw [Result.pure_ok] at hgrowth
      rcases h0 with h0 | h0 <;> simp [← hgrowth, h0]
    · simp only [Result.bind_ok, mulU_ok, addU_ok] at hgrowth
      obtain ⟨_, ⟨-, rfl⟩, -, rfl⟩ := hgrowth
      rfl
  rw [hfactor, visible]

/-! ## Settlement and rates move no visible balance -/

theorem settle_ok {u : Unit} (h : _settlePreviousIntrestAccrued T user s = .ok (u, s')) :
    s.lastUpdatedTimeStampToUser user ≤ T ∧ user ≠ 0 ∧ ∃ hs, s' = s.settled T user hs := by
  simp only [_settlePreviousIntrestAccrued, Tx.bind_ok, Tx.get_ok, Tx.view_ok, subU_ok, Tx.modify_ok,
    super, Tx.call_ok, ERC20._mint_ok] at h
  obtain ⟨_, _, ⟨rfl, rfl⟩, _, s, ⟨hbal, rfl⟩, _, _, ⟨⟨-, rfl⟩, rfl⟩, _, _, rfl, _,
    ⟨huser, hs, rfl⟩, rfl⟩ := h
  obtain ⟨rfl, hlast⟩ := balanceOf_ok hbal
  exact ⟨hlast, huser, hs, rfl⟩

theorem settled_last {h} :
    (s.settled T user h).lastUpdatedTimeStampToUser a =
      if a = user then T else s.lastUpdatedTimeStampToUser a := by
  simp [settled, update_apply]

theorem visible_settled {h} : (s.settled T user h).visible T a = s.visible T a := by
  by_cases ha : a = user
  · subst ha
    rw [visible_of_settled (by simp [settled_last])]
    have hle := balances_le_visible (s := s) (T := T) (a := a)
    simp only [settled, ERC20.issue_balances, credit_self]
    omega
  · exact visible_congr (by simp [settled, credit_of_ne ha]) rfl (by simp [settled, ha])

theorem visible_setRate {rate : Nat} (h : s.lastUpdatedTimeStampToUser user = T) :
    (s.setRate user rate).visible T a = s.visible T a := by
  by_cases ha : a = user
  · subst ha
    rw [visible_of_settled h, visible_of_settled (s := s.setRate a rate) h]
    rfl
  · exact visible_congr rfl (by simp [setRate, ha]) rfl

/-- A write to the principal balances shows as it is on settled accounts, and
not at all where it changes nothing. -/
theorem visible_write (h : s.lastUpdatedTimeStampToUser a = T ∨ t.balances a = s.erc20.balances a) :
    ({ s with erc20 := t } : RebaseToken).visible T a + s.erc20.balances a =
      s.visible T a + t.balances a := by
  rcases h with hlast | hbal
  · rw [visible_of_settled hlast, visible_of_settled (s := { s with erc20 := t }) hlast]
    exact Nat.add_comm _ _
  · have hsame : ({ s with erc20 := t } : RebaseToken).visible T a = s.visible T a :=
      visible_congr hbal rfl rfl
    rw [hsame, hbal]

/-! ## The two halves of a call -/

/-- `s₁` is `s` with the parties of a call settled and their rates set. -/
structure Prepared (T : Nat) (party : Address → Prop) (s s₁ : RebaseToken) : Prop where
  visible_eq : ∀ a, s₁.visible T a = s.visible T a
  settled : ∀ a, party a → s₁.lastUpdatedTimeStampToUser a = T
  rest : ∀ a, ¬ party a → s₁.erc20.balances a = s.erc20.balances a ∧
    s₁.intrestRateToUser a = s.intrestRateToUser a ∧
    s₁.lastUpdatedTimeStampToUser a = s.lastUpdatedTimeStampToUser a

/-- The exact effect of a call: `paidOut` and `paidIn` on the visible balances,
nothing at all on the accounts that are no party. -/
structure Exact (T : Nat) (party : Address → Prop) (paidOut paidIn : Address → Nat)
    (s s' : RebaseToken) : Prop where
  visible_eq : ∀ a, s'.visible T a + paidOut a = s.visible T a + paidIn a
  others : ∀ a, ¬ party a → balanceOf T a s' = balanceOf T a s

variable {party : Address → Prop} {s₁ s₂ : RebaseToken} {paidOut paidIn : Address → Nat}

theorem Prepared.settle {u : Unit} (h : _settlePreviousIntrestAccrued T user s₁ = .ok (u, s₂))
    (hs : Prepared T party s s₁) : Prepared T (fun a => party a ∨ a = user) s s₂ := by
  obtain ⟨-, -, _, rfl⟩ := settle_ok h
  refine ⟨fun a => ?_, fun a ha => ?_, fun a ha => ?_⟩
  · rw [visible_settled, hs.visible_eq]
  · rw [settled_last]
    split
    · rfl
    · next hne => exact hs.settled a (ha.resolve_right hne)
  · rw [not_or] at ha
    obtain ⟨hbal, hrate, hlast⟩ := hs.rest a ha.1
    refine ⟨?_, hrate, ?_⟩
    · simpa [RebaseToken.settled, credit_of_ne ha.2] using hbal
    · rw [settled_last, if_neg ha.2, hlast]

theorem Prepared.rate (hs : Prepared T party s s₁) (user : Address) (rate : Nat)
    (huser : party user) :
    Prepared T party s (s₁.setRate user rate) := by
  refine ⟨fun a => ?_, hs.settled, fun a ha => ?_⟩
  · rw [visible_setRate (hs.settled user huser), hs.visible_eq]
  · obtain ⟨hbal, hrate, hlast⟩ := hs.rest a ha
    have hne : a ≠ user := by
      rintro rfl
      exact ha huser
    exact ⟨hbal, by simpa [setRate, hne] using hrate, hlast⟩

theorem Prepared.refl : Prepared T (fun _ => False) s s :=
  ⟨fun _ => rfl, fun _ h => h.elim, fun _ _ => ⟨rfl, rfl, rfl⟩⟩

/-- A write to the principal balances of the parties completes the call. -/
theorem exact_of_write (hs : Prepared T party s s₁)
    (hledger : ∀ a, t.balances a + paidOut a = s₁.erc20.balances a + paidIn a)
    (hothers : ∀ a, ¬ party a → t.balances a = s₁.erc20.balances a) :
    Exact T party paidOut paidIn s { s₁ with erc20 := t } := by
  refine ⟨fun a => ?_, fun a ha => ?_⟩
  · have hwrite : ({ s₁ with erc20 := t } : RebaseToken).visible T a + s₁.erc20.balances a =
        s₁.visible T a + t.balances a := by
      refine visible_write ?_
      by_cases ha : party a
      · exact .inl (hs.settled a ha)
      · exact .inr (hothers a ha)
    have hvisible := hs.visible_eq a
    have hsame := hledger a
    omega
  · obtain ⟨hbal, hrate, hlast⟩ := hs.rest a ha
    exact balanceOf_congr ((hothers a ha).trans hbal) hrate hlast

/-- A call that writes no balance, rate or time. -/
theorem exact_of_frame (hbal : s'.erc20.balances = s.erc20.balances)
    (hrate : s'.intrestRateToUser = s.intrestRateToUser)
    (hlast : s'.lastUpdatedTimeStampToUser = s.lastUpdatedTimeStampToUser) :
    Exact T (fun _ => False) (fun _ => 0) (fun _ => 0) s s' := by
  refine ⟨fun a => ?_, fun a _ => ?_⟩
  · rw [visible_congr (congrFun hbal a) (congrFun hrate a) (congrFun hlast a)]
  · exact balanceOf_congr (congrFun hbal a) (congrFun hrate a) (congrFun hlast a)

theorem resolve_ok {value r : Nat} (h : resolve T user value s = .ok (r, s')) :
    r = s.explicitAmount T user value ∧ s' = s := by
  unfold resolve at h
  unfold explicitAmount
  split at h
  · next hmax =>
    obtain ⟨hbal, rfl⟩ := Tx.view_ok.mp h
    rw [if_pos hmax]
    exact ⟨(balanceOf_ok hbal).1, rfl⟩
  · next hmax =>
    obtain ⟨rfl, rfl⟩ := Tx.pure_ok.mp h
    rw [if_neg hmax]
    exact ⟨rfl, rfl⟩

theorem Prepared.explicitAmount_eq (hs : Prepared T party s s₁) {value : Nat} :
    s₁.explicitAmount T user value = s.explicitAmount T user value := by
  unfold explicitAmount
  rw [hs.visible_eq]

theorem settleParties_ok {value r : Nat} (h : settleParties c src dst value s = .ok (r, s')) :
    Prepared c.timestamp (fun a => a = src ∨ a = dst) s s' ∧
      r = s.explicitAmount c.timestamp src value := by
  simp only [settleParties, Tx.bind_ok, Tx.modify_ok] at h
  obtain ⟨_, s₁, hsrc, _, s₂, hdst, _, s₃, rfl, h⟩ := h
  have hparties := (Prepared.refl.settle hsrc).settle hdst
  simp only [false_or] at hparties
  obtain ⟨rfl, rfl⟩ := resolve_ok h
  split
  · have hrated := hparties.rate dst (s₂.intrestRateToUser src) (.inr rfl)
    exact ⟨hrated, hrated.explicitAmount_eq⟩
  · exact ⟨hparties, hparties.explicitAmount_eq⟩

/-- A transfer from one account to another, or to itself, in the ledger. -/
theorem move_ledger {value : Nat} {h : value ≤ t.balances src} :
    (t.move src dst value h).balances a + (if a = src then value else 0) =
      t.balances a + (if a = dst then value else 0) := by
  simp only [ERC20.move_balances, credit_apply, debit_apply]
  split_ifs with hd hs hs
  · subst hs
    omega
  · rfl
  · subst hs
    omega
  · rfl

theorem super_ok {α : Type} {x : Tx ERC20Error ERC20 α} {r : α} :
    super x s = .ok (r, s') ↔ ∃ t, x s.erc20 = .ok (r, t) ∧ s' = { s with erc20 := t } := by
  simp [super]

theorem superOwnable_ok {α : Type} {x : Tx OwnableError Address α} {r : α} :
    superOwnable x s = .ok (r, s') ↔ ∃ o, x s.owner = .ok (r, o) ∧ s' = { s with owner := o } := by
  simp [superOwnable]

theorem onlyOwner_ok {u : Unit} :
    onlyOwner c.sender s = .ok (u, s') ↔ s.owner = c.sender ∧ s' = s := by
  simp [onlyOwner, superOwnable_ok]

theorem onlyMinter_ok {u : Unit} :
    onlyMinter c.sender s = .ok (u, s') ↔ s.minters c.sender = true ∧ s' = s := by
  simp [onlyMinter]

theorem amountValid_ok {amount : Nat} {u : Unit} :
    amountValid amount s = .ok (u, s') ↔ 0 < amount ∧ s' = s := by
  simp [amountValid, Nat.pos_iff_ne_zero]

/-! ## The calls that move an amount -/

theorem mint_exact {amount : Nat} {u : Unit} (h : mint c dst amount s = .ok (u, s')) :
    Exact c.timestamp (fun a => a = dst) (fun _ => 0) (fun a => if a = dst then amount else 0)
      s s' := by
  simp only [mint, Tx.bind_ok, onlyMinter_ok, amountValid_ok, Tx.modify_ok, super_ok,
    ERC20._mint_ok] at h
  obtain ⟨_, s, ⟨-, rfl⟩, _, _, ⟨-, rfl⟩, _, s₁, hsettle, _, _, rfl, t, ⟨-, _, rfl⟩, rfl⟩ := h
  have hparty := Prepared.refl.settle hsettle
  simp only [false_or] at hparty
  refine exact_of_write (hparty.rate _ _ rfl) (fun a => ?_) fun a ha => ?_
  · simp only [ERC20.issue_balances, credit_apply]
    split <;> rfl
  · exact credit_of_ne ha

theorem burn_exact {amount : Nat} {u : Unit} (h : burn c src amount s = .ok (u, s')) :
    Exact c.timestamp (fun a => a = src)
      (fun a => if a = src then s.explicitAmount c.timestamp src amount else 0) (fun _ => 0) s s' := by
  simp only [burn, Tx.bind_ok, onlyMinter_ok, amountValid_ok, super_ok, ERC20._burn_ok] at h
  obtain ⟨_, s, ⟨-, rfl⟩, _, _, ⟨-, rfl⟩, _, _, hresolve, _, s₁, hsettle, t, ⟨-, hv, rfl⟩, rfl⟩ := h
  obtain ⟨rfl, rfl⟩ := resolve_ok hresolve
  have hparty := Prepared.refl.settle hsettle
  simp only [false_or] at hparty
  refine exact_of_write hparty (fun a => ?_) fun a ha => ?_
  · simp only [ERC20.destroy_balances, debit_apply]
    split
    · next ha =>
      subst ha
      omega
    · rfl
  · exact debit_of_ne ha

/-- `transfer` and `transferFrom` end with the same move; the second spends an
allowance before, which is no balance. -/
theorem move_exact {value : Nat} {t₀ : ERC20} (hs : Prepared T (fun a => a = src ∨ a = dst) s s₁)
    (ht₀ : t₀.balances = s₁.erc20.balances) {h : value ≤ t₀.balances src} :
    Exact T (fun a => a = src ∨ a = dst) (fun a => if a = src then value else 0)
      (fun a => if a = dst then value else 0) s { s₁ with erc20 := t₀.move src dst value h } := by
  refine exact_of_write hs (fun a => ?_) fun a ha => ?_
  · rw [← ht₀]
    exact move_ledger
  · rw [not_or] at ha
    rw [ERC20.move_balances, credit_of_ne ha.2, debit_of_ne ha.1, ht₀]

theorem transfer_exact {value : Nat} {r : Bool} (h : transfer c dst value s = .ok (r, s')) :
    Exact c.timestamp (fun a => a = c.sender ∨ a = dst)
      (fun a => if a = c.sender then s.explicitAmount c.timestamp c.sender value else 0)
      (fun a => if a = dst then s.explicitAmount c.timestamp c.sender value else 0) s s' := by
  simp only [transfer, Tx.bind_ok, super_ok, ERC20.transfer_ok] at h
  obtain ⟨_, s₁, hsettle, t, ⟨-, -, -, _, rfl⟩, rfl⟩ := h
  obtain ⟨hparties, rfl⟩ := settleParties_ok hsettle
  exact move_exact hparties rfl

theorem transferFrom_exact {value : Nat} {r : Bool}
    (h : transferFrom c src dst value s = .ok (r, s')) :
    Exact c.timestamp (fun a => a = src ∨ a = dst)
      (fun a => if a = src then s.explicitAmount c.timestamp src value else 0)
      (fun a => if a = dst then s.explicitAmount c.timestamp src value else 0) s s' := by
  simp only [transferFrom, Tx.bind_ok, super_ok, ERC20.transferFrom_ok] at h
  obtain ⟨_, s₁, hsettle, t, ⟨-, -, -, -, _, rfl⟩, rfl⟩ := h
  obtain ⟨hparties, rfl⟩ := settleParties_ok hsettle
  exact move_exact hparties ERC20.spend_balances

end AccountingLemmas

open AccountingLemmas

/-! ## Every call -/

theorem exact_exec {c : Ctx} {op : RebaseOp} {s s' : RebaseToken} (h : op.exec c s = .ok ((), s')) :
    Exact c.timestamp (fun a => op.party c a) (fun a => op.paidOut c s a)
      (fun a => op.paidIn c s a) s s' := by
  cases op with
  | mint d a => exact mint_exact h
  | burn f a => exact burn_exact h
  | transfer d v =>
    simp only [RebaseOp.exec, Tx.bind_ok, Tx.pure_ok] at h
    obtain ⟨_, _, htransfer, -, rfl⟩ := h
    exact transfer_exact htransfer
  | transferFrom f d v =>
    simp only [RebaseOp.exec, Tx.bind_ok, Tx.pure_ok] at h
    obtain ⟨_, _, htransfer, -, rfl⟩ := h
    exact transferFrom_exact htransfer
  | approve p v =>
    simp only [RebaseOp.exec, RebaseToken.approve, Tx.bind_ok, super_ok, ERC20.approve_ok,
      Tx.pure_ok] at h
    obtain ⟨_, _, ⟨_, ⟨-, -, -, rfl⟩, rfl⟩, -, rfl⟩ := h
    exact exact_of_frame rfl rfl rfl
  | setIntrestRate r =>
    simp only [RebaseOp.exec, RebaseToken.setIntrestRate, Tx.bind_ok, onlyOwner_ok, Tx.get_ok,
      Tx.revertIf_ok, Tx.modify_ok] at h
    obtain ⟨_, s, ⟨-, rfl⟩, _, _, ⟨rfl, rfl⟩, _, _, ⟨-, rfl⟩, rfl⟩ := h
    exact exact_of_frame rfl rfl rfl
  | grantMintAndBurnRole u =>
    simp only [RebaseOp.exec, RebaseToken.grantMintAndBurnRole, Tx.bind_ok, onlyOwner_ok,
      Tx.modify_ok] at h
    obtain ⟨_, s, ⟨-, rfl⟩, rfl⟩ := h
    exact exact_of_frame rfl rfl rfl
  | renounceRole u =>
    simp only [RebaseOp.exec, RebaseToken.renounceRole, Tx.bind_ok, Tx.revertIf_ok, Tx.modify_ok] at h
    obtain ⟨_, s, ⟨-, rfl⟩, rfl⟩ := h
    exact exact_of_frame rfl rfl rfl
  | transferOwnership o | renounceOwnership =>
    obtain ⟨_, -, rfl⟩ := superOwnable_ok.mp h
    exact exact_of_frame rfl rfl rfl

/-- A call changes the visible balances at its time by its explicit amount and by
nothing else: as numbers, as `balanceOf` answers them before and after, and not
at all for the accounts that are no party of the call. -/
theorem exact_accounting {c : Ctx} {op : RebaseOp} {s s' : RebaseToken}
    (h : op.exec c s = .ok ((), s')) :
    (∀ u, s'.visible c.timestamp u + op.paidOut c s u =
      s.visible c.timestamp u + op.paidIn c s u) ∧
    (∀ u before after, s.balanceOf c.timestamp u = .ok before →
      s'.balanceOf c.timestamp u = .ok after →
      after + op.paidOut c s u = before + op.paidIn c s u) ∧
    (∀ u, ¬ op.party c u → s'.balanceOf c.timestamp u = s.balanceOf c.timestamp u) := by
  have hexact := exact_exec h
  refine ⟨hexact.visible_eq, fun u before after hbefore hafter => ?_, hexact.others⟩
  rw [(balanceOf_ok hbefore).1, (balanceOf_ok hafter).1]
  exact hexact.visible_eq u

/-- The token as deployed by `9`, with the role given to `1`. -/
def sampleToken : RebaseToken where
  erc20 := ERC20.empty
  owner := 9
  minters := update (fun _ => false) 1 true
  intrestRate := 5 * 10 ^ 10
  intrestRateToUser := fun _ => 0
  lastUpdatedTimeStampToUser := fun _ => 0

/-- Account `7` got `10 ^ 20` and sends all of it to `8` an hour later: what
arrives is what was visible. -/
theorem exact_accounting_full_transfer :
    ∃ s s' : RebaseToken, (RebaseOp.mint 7 (10 ^ 20)).exec ⟨1, 1000⟩ sampleToken = .ok ((), s) ∧
      (RebaseOp.transfer 8 uintMax).exec ⟨7, 4600⟩ s = .ok ((), s') ∧
      s'.visible 4600 7 + 100018000000000000000 = s.visible 4600 7 ∧
      s'.visible 4600 8 = 100018000000000000000 := by
  have hmint : (RebaseOp.mint 7 (10 ^ 20)).exec ⟨1, 1000⟩ sampleToken = .ok ((), _) :=
    Tx.ok_after (by decide +kernel)
  have htransfer : (RebaseOp.transfer 8 uintMax).exec ⟨7, 4600⟩
      (((RebaseOp.mint 7 (10 ^ 20)).exec ⟨1, 1000⟩).after sampleToken) = .ok ((), _) :=
    Tx.ok_after (by decide +kernel)
  obtain ⟨hvisible, -, -⟩ := exact_accounting htransfer
  refine ⟨_, _, hmint, htransfer, ?_, ?_⟩
  · have hpayer := hvisible 7
    have hout : (RebaseOp.transfer 8 uintMax).paidOut ⟨7, 4600⟩
        (((RebaseOp.mint 7 (10 ^ 20)).exec ⟨1, 1000⟩).after sampleToken) 7 =
          100018000000000000000 := by decide +kernel
    rwa [hout] at hpayer
  · have hreceiver := hvisible 8
    have hin : (((RebaseOp.mint 7 (10 ^ 20)).exec ⟨1, 1000⟩).after sampleToken).visible 4600 8 +
        (RebaseOp.transfer 8 uintMax).paidIn ⟨7, 4600⟩
          (((RebaseOp.mint 7 (10 ^ 20)).exec ⟨1, 1000⟩).after sampleToken) 8 =
            100018000000000000000 := by decide +kernel
    rwa [hin] at hreceiver

end AdvFoundry.Rebase
