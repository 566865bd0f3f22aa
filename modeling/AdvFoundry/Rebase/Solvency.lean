import Mathlib.Algebra.BigOperators.Group.Finset.Piecewise
import AdvFoundry.Rebase.Vault

/-!
# What the vault owes and what it has

Deposits and redemptions move the vault's ETH and the visible balances by the
same amount. The two sides part where one moves alone: interest adds to the
visible balances and brings no ETH, plain ETH adds to the vault and to no
balance. So the ETH exceeds the visible balances exactly by what the plain ETH
exceeds the interest (`solvent_while_interest_funded`), and an unfunded vault is
short as soon as interest has accrued (`unfunded_interest_insolvent`).
-/

namespace AdvFoundry.Rebase

open Function

/-- The books of the vault at `this`, over the whole history: nobody else mints
or burns, and both sides count the deposits and the payments. -/
structure Books (this : Address) (w : World) : Prop where
  only_vault : ∀ a, w.token.minters a = true → a = this
  assets : w.balance + w.paid = w.deposited + w.plain
  owed : w.liabilities + w.paid = w.deposited + w.accrued

theorem Books.balance_eq {this : Address} {w : World} (h : Books this w) :
    w.balance + w.accrued = w.plain + w.liabilities := by
  have hassets := h.assets
  have howed := h.owed
  omega

namespace SolvencyLemmas

open AccountingLemmas

variable {this sender : Address} {w w' : World} {s s' : RebaseToken} {c : Ctx} {T : Nat}
  {user src dst : Address} {value : Nat}

/-! ## The role stays with the vault -/

section Roles

open RebaseToken

theorem preserves_minters_super {α : Type} {x : Tx ERC20Error ERC20 α} :
    Tx.Preserves (·.minters) (super x) :=
  Tx.preserves_call fun _ _ => rfl

theorem preserves_minters_settle :
    Tx.Preserves (·.minters) (_settlePreviousIntrestAccrued T user) :=
  Tx.preserves_bind Tx.preserves_get fun _ => Tx.preserves_bind Tx.preserves_view fun _ =>
    Tx.preserves_bind Tx.preserves_view fun _ =>
      Tx.preserves_bind (Tx.preserves_modify fun _ => rfl) fun _ => preserves_minters_super

theorem preserves_minters_resolve : Tx.Preserves (·.minters) (resolve T user value) := by
  unfold resolve
  split
  · exact Tx.preserves_view
  · exact Tx.preserves_pure

theorem preserves_minters_settleParties :
    Tx.Preserves (·.minters) (settleParties c src dst value) := by
  refine Tx.preserves_bind preserves_minters_settle fun _ =>
    Tx.preserves_bind preserves_minters_settle fun _ =>
      Tx.preserves_bind (Tx.preserves_modify fun s => ?_) fun _ => preserves_minters_resolve
  split <;> rfl

theorem preserves_minters_mint : Tx.Preserves (·.minters) (mint c dst value) :=
  Tx.preserves_bind Tx.preserves_view fun _ => Tx.preserves_bind Tx.preserves_revertIf fun _ =>
    Tx.preserves_bind preserves_minters_settle fun _ =>
      Tx.preserves_bind (Tx.preserves_modify fun _ => rfl) fun _ => preserves_minters_super

theorem preserves_minters_burn : Tx.Preserves (·.minters) (burn c src value) :=
  Tx.preserves_bind Tx.preserves_view fun _ => Tx.preserves_bind Tx.preserves_revertIf fun _ =>
    Tx.preserves_bind preserves_minters_resolve fun _ =>
      Tx.preserves_bind preserves_minters_settle fun _ => preserves_minters_super

theorem preserves_minters_transfer : Tx.Preserves (·.minters) (transfer c dst value) :=
  Tx.preserves_bind preserves_minters_settleParties fun _ => preserves_minters_super

theorem preserves_minters_transferFrom : Tx.Preserves (·.minters) (transferFrom c src dst value) :=
  Tx.preserves_bind preserves_minters_settleParties fun _ => preserves_minters_super

theorem preserves_minters_setIntrestRate : Tx.Preserves (·.minters) (setIntrestRate c value) :=
  Tx.preserves_bind (Tx.preserves_call fun _ _ => rfl) fun _ =>
    Tx.preserves_bind Tx.preserves_get fun _ =>
      Tx.preserves_bind Tx.preserves_revertIf fun _ => Tx.preserves_modify fun _ => rfl

/-- Only a grant makes a new minter. -/
theorem minters_exec {op : RebaseOp} (hgrant : ∀ u, op ≠ .grantMintAndBurnRole u)
    (h : op.exec c s = .ok ((), s')) {a : Address} (ha : s'.minters a = true) :
    s.minters a = true := by
  -- all calls but two do not touch the role at all
  suffices hsame : s'.minters = s.minters ∨ s'.minters = update s.minters c.sender false by
    rcases hsame with hsame | hsame <;> rw [hsame] at ha
    · exact ha
    · rw [update_apply] at ha
      split at ha
      · cases ha
      · exact ha
  cases op with
  | mint d v => exact .inl (preserves_minters_mint _ _ _ h)
  | burn f v => exact .inl (preserves_minters_burn _ _ _ h)
  | transfer d v =>
    obtain ⟨_, _, htransfer, hpure⟩ := Tx.bind_ok.mp h
    rw [(Tx.pure_ok.mp hpure).2]
    exact .inl (preserves_minters_transfer _ _ _ htransfer)
  | transferFrom f d v =>
    obtain ⟨_, _, htransfer, hpure⟩ := Tx.bind_ok.mp h
    rw [(Tx.pure_ok.mp hpure).2]
    exact .inl (preserves_minters_transferFrom _ _ _ htransfer)
  | approve p v =>
    obtain ⟨_, _, happrove, hpure⟩ := Tx.bind_ok.mp h
    rw [(Tx.pure_ok.mp hpure).2]
    exact .inl (preserves_minters_super _ _ _ happrove)
  | setIntrestRate r => exact .inl (preserves_minters_setIntrestRate _ _ _ h)
  | grantMintAndBurnRole u => exact absurd rfl (hgrant u)
  | renounceRole u =>
    obtain ⟨_, _, hrevert, hmodify⟩ := Tx.bind_ok.mp h
    rw [Tx.modify_ok.mp hmodify, (Tx.revertIf_ok.mp hrevert).2]
    exact .inr rfl
  | transferOwnership o | renounceOwnership =>
    obtain ⟨_, -, rfl⟩ := superOwnable_ok.mp h
    exact .inl rfl

end Roles

/-! ## Sums of visible balances -/

theorem sum_at (k : Address) (v : Nat) : ∑ u : Address, (if u = k then v else 0) = v := by
  rw [Finset.sum_ite_eq']
  exact if_pos (Finset.mem_univ k)

theorem liabilities_congr (w w' : World) (htoken : w'.token = w.token)
    (htime : w'.timestamp = w.timestamp) :
    w'.liabilities = w.liabilities := by
  unfold World.liabilities
  rw [htoken, htime]

theorem visible_le_liabilities (user : Address) :
    w.token.visible w.timestamp user ≤ w.liabilities := by
  unfold World.liabilities
  exact le_sum (fun u => w.token.visible w.timestamp u) user

/-- Where one account holds everything. -/
theorem liabilities_sole (h : ∀ u, u ≠ user → w.token.erc20.balances u = 0) :
    w.liabilities = w.token.visible w.timestamp user := by
  unfold World.liabilities
  refine Finset.sum_eq_single user (fun u _ hne => ?_) fun h => absurd (Finset.mem_univ user) h
  simp [RebaseToken.visible, h u hne]

/-- A call with an exact effect, seen in the sum. -/
theorem liabilities_exact (w w' : World) {party : Address → Prop} {paidOut paidIn : Address → Nat}
    (h : Exact w.timestamp party paidOut paidIn w.token w'.token)
    (htime : w'.timestamp = w.timestamp) :
    w'.liabilities + ∑ u, paidOut u = w.liabilities + ∑ u, paidIn u := by
  unfold World.liabilities
  rw [htime, ← Finset.sum_add_distrib, ← Finset.sum_add_distrib]
  exact Finset.sum_congr rfl fun u _ => h.visible_eq u

/-- The visible balances do not fall while time passes. -/
theorem liabilities_mono (seconds : Nat) :
    w.liabilities ≤ ({ w with timestamp := w.timestamp + seconds } : World).liabilities := by
  unfold World.liabilities
  refine Finset.sum_le_sum fun u _ => Nat.div_le_div_right (Nat.mul_le_mul_left _ ?_)
  have hlonger : w.timestamp - w.token.lastUpdatedTimeStampToUser u ≤
      w.timestamp + seconds - w.token.lastUpdatedTimeStampToUser u := by omega
  exact Nat.add_le_add_left (Nat.mul_le_mul_right _ hlonger) _

/-! ## Every call keeps the books -/

abbrev Keeps {α : Type} (this : Address) (o : Outcome VaultError World Payment Unit α) : Prop :=
  o.Safe (Books this) (fun _ => True) (fun _ => True) fun _ => Books this

theorem callToken_ok {α : Type} {x : Tx RebaseError RebaseToken α} {a : α} :
    callToken x w = .ok (a, w') ↔ ∃ s, x w.token = .ok (a, s) ∧ w' = w.setToken s := by
  simp [callToken]

/-- A call of the token that takes from the balances what it gives to them. -/
theorem books_setToken {party : Address → Prop} {paidOut paidIn : Address → Nat}
    (hw : Books this w) (hexact : Exact w.timestamp party paidOut paidIn w.token s')
    (hminters : ∀ a, s'.minters a = true → w.token.minters a = true)
    (heven : ∑ u, paidOut u = ∑ u, paidIn u) : Books this (w.setToken s') := by
  refine ⟨fun a ha => hw.only_vault a (hminters a ha), hw.assets, ?_⟩
  have hsum := liabilities_exact w (w.setToken s') hexact rfl
  have howed := hw.owed
  simp only [World.setToken] at hsum ⊢
  omega

/-- What users call moves balances between them: to mint and to burn is for the
vault. -/
theorem userCall_even {op : RebaseOp} (hw : Books this w) (hsender : sender ≠ this)
    (h : op.exec ⟨sender, w.timestamp⟩ w.token = .ok ((), s')) :
    ∑ u, op.paidOut ⟨sender, w.timestamp⟩ w.token u =
      ∑ u, op.paidIn ⟨sender, w.timestamp⟩ w.token u := by
  cases op with
  | mint d v =>
    obtain ⟨_, _, hrole, -⟩ := Tx.bind_ok.mp h
    exact absurd (hw.only_vault sender (onlyMinter_ok.mp hrole).1) hsender
  | burn f v =>
    obtain ⟨_, _, hrole, -⟩ := Tx.bind_ok.mp h
    exact absurd (hw.only_vault sender (onlyMinter_ok.mp hrole).1) hsender
  | transfer d v | transferFrom f d v => simp only [RebaseOp.paidOut, RebaseOp.paidIn, sum_at]
  | approve p v | setIntrestRate r | grantMintAndBurnRole u | renounceRole u
  | transferOwnership o | renounceOwnership => simp only [RebaseOp.paidOut, RebaseOp.paidIn]

theorem keeps_tx {x : VaultTx Unit} (hok : ∀ w', x w = .ok ((), w') → Books this w') :
    Keeps this ((Proc.tx x : VaultProc Unit) w) :=
  Proc.safe_tx (fun _ w' h => hok w' h) fun _ _ => trivial

theorem keeps_userCall {op : RebaseOp} (hgrant : ∀ u, op ≠ .grantMintAndBurnRole u)
    (hw : Books this w) (hsender : sender ≠ this) :
    Keeps this ((Proc.tx (userCall sender op) : VaultProc Unit) w) := by
  refine keeps_tx fun w' h => ?_
  simp only [userCall, Tx.bind_ok, Tx.get_ok, callToken_ok] at h
  obtain ⟨_, _, ⟨rfl, rfl⟩, s', hop, rfl⟩ := h
  exact books_setToken hw (exact_exec hop) (fun a ha => minters_exec hgrant hop ha)
    (userCall_even hw hsender hop)

/-- A deposit adds as much to the ETH as to the balances. -/
theorem keeps_deposit (hw : Books this w) :
    Keeps this ((Proc.tx (deposit this sender value) : VaultProc Unit) w) := by
  refine keeps_tx fun w' h => ?_
  simp only [deposit, Tx.bind_ok, Tx.modify_ok, Tx.revertIf_ok, Tx.get_ok, callToken_ok] at h
  obtain ⟨_, _, rfl, _, _, ⟨-, rfl⟩, _, _, ⟨rfl, rfl⟩, s', hmint, rfl⟩ := h
  have hsame : s'.minters = w.token.minters := preserves_minters_mint _ _ _ hmint
  have hsum := liabilities_exact w
    { w with token := s', balance := w.balance + value, deposited := w.deposited + value }
    (mint_exact hmint) rfl
  rw [sum_at, Finset.sum_const_zero] at hsum
  have hassets := hw.assets
  have howed := hw.owed
  simp only [World.setToken]
  refine ⟨fun a ha => hw.only_vault a (hsame ▸ ha), ?_, ?_⟩ <;> simp only <;> omega

theorem keeps_receive (hw : Books this w) :
    Keeps this ((Proc.tx (receive value) : VaultProc Unit) w) := by
  refine keeps_tx fun w' h => ?_
  rw [Tx.modify_ok.mp h]
  have hsame := liabilities_congr w
    { w with balance := w.balance + value, plain := w.plain + value } rfl rfl
  have hassets := hw.assets
  have howed := hw.owed
  refine ⟨hw.only_vault, ?_, ?_⟩ <;> simp only <;> omega

theorem keeps_wait {seconds : Nat} (hw : Books this w) :
    Keeps this ((Proc.tx (wait seconds) : VaultProc Unit) w) := by
  refine keeps_tx fun w' h => ?_
  rw [Tx.modify_ok.mp h]
  have hgrow := liabilities_mono (w := w) seconds
  have hsame := liabilities_congr { w with timestamp := w.timestamp + seconds }
    { w with
      timestamp := w.timestamp + seconds
      accrued := w.accrued +
        (({ w with timestamp := w.timestamp + seconds } : World).liabilities - w.liabilities) }
    rfl rfl
  have howed := hw.owed
  refine ⟨hw.only_vault, hw.assets, ?_⟩
  simp only
  omega

/-! ## Redemptions -/

/-- A payment fails at once when the vault has less. -/
theorem pay_short (h : w.balance < value) :
    (pay dst value w).bind (fun success =>
        Proc.tx (Tx.revertIf (success = false) .burnFailed)) =
      .reverted (.error .burnFailed) := by
  unfold pay
  rw [Proc.tx_bind_ok (Tx.get_ok.mpr ⟨rfl, rfl⟩), if_pos h]
  rfl

/-- How `reedem` goes on from the answer to its payment. -/
def completed : Option Unit → World → Outcome VaultError World Payment Unit Unit
  | some (), w => .returned () w
  | none, _ => .reverted (.error .burnFailed)

/-- Else it hands over the ETH. -/
theorem pay_funded (h : ¬ w.balance < value) :
    (pay dst value w).bind (fun success =>
        Proc.tx (Tx.revertIf (success = false) .burnFailed)) =
      .waiting ⟨dst, value⟩
        { w with balance := w.balance - value, paid := w.paid + value } completed := by
  unfold pay
  rw [Proc.tx_bind_ok (Tx.get_ok.mpr ⟨rfl, rfl⟩), if_neg h]
  show Outcome.waiting _ _ _ = Outcome.waiting _ _ _
  congr 1
  funext a s
  cases a <;> rfl

theorem callToken_ne_burnFailed {α : Type} {x : Tx RebaseError RebaseToken α} :
    callToken x w ≠ .error (.error .burnFailed) := by
  intro h
  obtain ⟨_, -, h⟩ := Tx.call_error.mp h
  cases h

/-- The storage `reedem` hands over: the balance burned, the ETH gone. -/
def payout (w : World) (s' : RebaseToken) (amount : Nat) : World :=
  { w.setToken s' with balance := w.balance - amount, paid := w.paid + amount }

theorem payout_liabilities : (payout w s' value).liabilities = (w.setToken s').liabilities :=
  liabilities_congr _ _ rfl rfl

/-- A redemption reverts, or it burns what the redeemer sees and hands over as
much ETH. -/
theorem reedem_cases (this sender : Address) (w : World) :
    (∃ e, reedem this sender w = .reverted e ∧
      (e = .error .burnFailed → w.balance < w.token.visible w.timestamp sender)) ∨
    ∃ s', RebaseToken.burn ⟨this, w.timestamp⟩ sender (w.token.visible w.timestamp sender) w.token =
        .ok ((), s') ∧
      w.token.visible w.timestamp sender ≤ w.balance ∧
      reedem this sender w = .waiting ⟨sender, w.token.visible w.timestamp sender⟩
        (payout w s' (w.token.visible w.timestamp sender)) completed := by
  unfold reedem
  rw [Proc.tx_bind_ok (Tx.get_ok.mpr ⟨rfl, rfl⟩)]
  cases hread : callToken (Tx.view (RebaseToken.balanceOf w.timestamp sender)) w with
  | error e =>
    exact .inl ⟨e, Proc.tx_bind_error hread, fun he => absurd (he ▸ hread) callToken_ne_burnFailed⟩
  | ok p =>
    obtain ⟨shown, w₁⟩ := p
    rw [Proc.tx_bind_ok hread]
    simp only [callToken_ok, Tx.view_ok] at hread
    obtain ⟨_, ⟨hbal, rfl⟩, rfl⟩ := hread
    obtain ⟨rfl, -⟩ := balanceOf_ok hbal
    rw [Proc.tx_bind_ok (Tx.revertIf_ok (u := ()).mpr ⟨Nat.not_lt_zero _, rfl⟩),
      show w.setToken w.token = w from rfl]
    cases hburn : callToken (RebaseToken.burn ⟨this, w.timestamp⟩ sender
        (w.token.visible w.timestamp sender)) w with
    | error e =>
      exact .inl ⟨e, Proc.tx_bind_error hburn, fun he => absurd (he ▸ hburn) callToken_ne_burnFailed⟩
    | ok p =>
      obtain ⟨_, w₂⟩ := p
      obtain ⟨s', hburned, rfl⟩ := callToken_ok.mp hburn
      by_cases hless : w.balance < w.token.visible w.timestamp sender
      · exact .inl ⟨_, (Proc.tx_bind_ok hburn).trans (pay_short hless), fun _ => hless⟩
      · exact .inr ⟨s', hburned, Nat.not_lt.mp hless,
          (Proc.tx_bind_ok hburn).trans (pay_funded hless)⟩

/-- What `reedem` burns: the whole visible balance. -/
theorem burn_visible (h : RebaseToken.burn ⟨this, w.timestamp⟩ sender
    (w.token.visible w.timestamp sender) w.token = .ok ((), s')) :
    (w.setToken s').liabilities + w.token.visible w.timestamp sender = w.liabilities := by
  have hexplicit : w.token.explicitAmount w.timestamp sender (w.token.visible w.timestamp sender) =
      w.token.visible w.timestamp sender := by
    unfold RebaseToken.explicitAmount
    exact ite_self _
  have hsum := liabilities_exact w (w.setToken s') (burn_exact h) rfl
  rw [hexplicit, sum_at, Finset.sum_const_zero, Nat.add_zero] at hsum
  exact hsum

/-- The books after a burn and the payment of what was burned. -/
theorem books_paid (hw : Books this w) (hsame : s'.minters = w.token.minters)
    (hsum : (w.setToken s').liabilities + value = w.liabilities) (hfunds : value ≤ w.balance) :
    Books this (payout w s' value) := by
  have hassets := hw.assets
  have howed := hw.owed
  refine ⟨fun a ha => hw.only_vault a (hsame ▸ ha), ?_, ?_⟩
  · simp only [payout, World.setToken]
    omega
  · rw [payout_liabilities]
    simp only [payout, World.setToken] at hsum ⊢
    omega

theorem keeps_reedem (hw : Books this w) : Keeps this (reedem this sender w) := by
  rcases reedem_cases this sender w with ⟨e, hreverted, -⟩ | ⟨s', hburn, hfunds, hwaiting⟩
  · rw [hreverted]
    trivial
  · rw [hwaiting]
    refine ⟨books_paid hw (preserves_minters_burn _ _ _ hburn) (burn_visible hburn) hfunds, ?_⟩
    intro a w' _ hw'
    cases a with
    | some u => exact hw'
    | none => trivial

/-- Where the vault has the ETH of all holders, a redemption does not fail for
lack of it, and what is left when the redeemer is paid covers the others. -/
theorem reedem_funded (this sender : Address) (hfunds : w.liabilities ≤ w.balance) :
    reedem this sender w ≠ .reverted (.error .burnFailed) ∧
      ∀ payment w' resume, reedem this sender w = .waiting payment w' resume →
        w'.liabilities ≤ w'.balance := by
  rcases reedem_cases this sender w with ⟨e, hreverted, hshort⟩ | ⟨s', hburn, -, hwaiting⟩
  · rw [hreverted]
    refine ⟨fun h => ?_, fun _ _ _ h => by cases h⟩
    cases h
    exact absurd (Nat.le_trans (visible_le_liabilities sender) hfunds) (Nat.not_le.mpr (hshort rfl))
  · rw [hwaiting]
    refine ⟨fun h => (by cases h), fun payment w' resume h => ?_⟩
    cases h
    have hsum := burn_visible hburn
    rw [payout_liabilities]
    exact Nat.le_sub_of_add_le (hsum.trans_le hfunds)

end SolvencyLemmas

open SolvencyLemmas

/-! ## Every run -/

/-- Every call keeps the books. -/
theorem keeps_exec {this : Address} {w : World} (m : Msg this) (hw : Books this w) :
    Keeps this (m.exec w) := by
  rcases m with ⟨sender, hsender, call⟩
  cases call with
  | deposit value => exact keeps_deposit hw
  | reedem => exact keeps_reedem hw
  | receive value => exact keeps_receive hw
  | token op hgrant => exact keeps_userCall hgrant hw hsender
  | wait seconds => exact keeps_wait hw

theorem Deployed.books {this : Address} {w : World} (h : Deployed this w) : Books this w := by
  obtain ⟨_, _, hbuilt, hgrant⟩ := h.built
  simp only [constructor, Result.bind_ok, Result.pure_ok] at hbuilt
  obtain ⟨_, -, rfl⟩ := hbuilt
  obtain ⟨_, _, howner, hmodify⟩ := Tx.bind_ok.mp hgrant
  have htoken := Tx.modify_ok.mp hmodify
  rw [(AccountingLemmas.onlyOwner_ok.mp howner).2] at htoken
  refine ⟨fun a ha => ?_, ?_, ?_⟩
  · rw [htoken] at ha
    simp only [update_apply] at ha
    split at ha
    · assumption
    · cases ha
  · rw [h.no_payment, h.no_deposit, h.plain_before]
    omega
  · have hzero : w.liabilities = 0 := by
      unfold World.liabilities
      refine Finset.sum_eq_zero fun u _ => ?_
      rw [htoken]
      simp [RebaseToken.visible, ERC20.empty]
    rw [h.no_payment, h.no_deposit, h.no_interest, hzero]

/-- In every state of every run the vault's ETH exceeds the visible balances by
what the plain ETH received exceeds the interest accrued. So while the plain ETH
covers the interest, the vault has the ETH of all holders, no redemption fails
for lack of it, and what a redeemer is paid leaves enough for all others. -/
theorem solvent_while_interest_funded {this : Address} {w₀ : World} {m : VaultMachine}
    {events : List (Event (Msg this) Unit)} (h₀ : Deployed this w₀)
    (hrun : Run (Step this) ⟨w₀, []⟩ events m) :
    m.world.balance + m.world.accrued = m.world.plain + m.world.liabilities ∧
    (m.world.accrued ≤ m.world.plain →
      m.world.liabilities ≤ m.world.balance ∧
      ∀ u, reedem this u m.world ≠ .reverted (.error .burnFailed) ∧
        ∀ payment w' resume, reedem this u m.world = .waiting payment w' resume →
          w'.liabilities ≤ w'.balance) := by
  have hbooks : Books this m.world :=
    (Machine.sound_run (fun l _ hw => keeps_exec l hw) hrun (fun ev _ => by cases ev <;> trivial)
      (Machine.sound_idle h₀.books)).world
  have hlaw := hbooks.balance_eq
  refine ⟨hlaw, fun hfunded => ?_⟩
  have hsolvent : m.world.liabilities ≤ m.world.balance := by omega
  exact ⟨hsolvent, fun u => reedem_funded this u hsolvent⟩

/-! ### One depositor

Vault at `1`, token of `9`. The account `7` deposits one ETH, and an hour passes. -/

/-- The world after the deployment, when the vault had `funding` ETH. -/
def sampleWorld (funding : Nat) : World where
  token := sampleToken
  balance := funding
  timestamp := 1000
  deposited := 0
  plain := funding
  paid := 0
  accrued := 0

theorem sampleWorld_deployed (funding : Nat) : Deployed 1 (sampleWorld funding) := by
  refine ⟨⟨9, _, rfl, ?_⟩, rfl, rfl, rfl, rfl⟩
  rfl

/-- The account `7` deposits, and then an hour passes. -/
def hourEvents : List (Event (Msg 1) Unit) :=
  [.call ⟨7, by decide, .deposit (10 ^ 18)⟩, .call ⟨7, by decide, .wait 3600⟩]

/-- With one ETH of funding the vault can pay the interest of the hour. -/
theorem funded_interest_solvent :
    ∃ m, Run (Step 1) ⟨sampleWorld (10 ^ 18), []⟩ hourEvents m ∧
      m.world.liabilities ≤ m.world.balance ∧
      reedem 1 7 m.world ≠ .reverted (.error .burnFailed) := by
  obtain ⟨m, hrun, hbalance, hplain, hvisible, hothers⟩ :
      ∃ m, Run (Step 1) ⟨sampleWorld (10 ^ 18), []⟩ hourEvents m ∧
        m.world.balance = 2 * 10 ^ 18 ∧ m.world.plain = 10 ^ 18 ∧
        m.world.token.visible m.world.timestamp 7 = 1000180000000000000 ∧
        ∀ u, u ≠ 7 → m.world.token.erc20.balances u = 0 := by
    have hrun : Run (Step 1) ⟨sampleWorld (10 ^ 18), []⟩ hourEvents _ :=
      Run.of_foldlM (fun _ _ _ h => h) (Option.some_get (by decide +kernel)).symm
    refine ⟨_, hrun, by decide +kernel, by decide +kernel, by decide +kernel, fun u hu => ?_⟩
    change credit (credit (fun _ => 0) 7 0) 7 (10 ^ 18) u = 0
    rw [credit_of_ne hu, credit_of_ne hu]
  obtain ⟨hlaw, hsolvent⟩ := solvent_while_interest_funded (sampleWorld_deployed _) hrun
  -- the interest cannot be evaluated, but the law gives it from the rest
  rw [liabilities_sole hothers, hvisible, hbalance, hplain] at hlaw
  obtain ⟨hcovered, hpaid⟩ := hsolvent (by omega)
  exact ⟨m, hrun, hcovered, (hpaid 7).1⟩

/-- Without funding the vault owes more than it has after an hour, and the sole
depositor cannot redeem. -/
theorem unfunded_interest_insolvent :
    Deployed 1 (sampleWorld 0) ∧
      ∃ m, Run (Step 1) ⟨sampleWorld 0, []⟩ hourEvents m ∧ m.world.balance < m.world.liabilities ∧
        reedem 1 7 m.world = .reverted (.error .burnFailed) := by
  have hrun : Run (Step 1) ⟨sampleWorld 0, []⟩ hourEvents _ :=
    Run.of_foldlM (fun _ _ _ h => h) (Option.some_get (by decide +kernel)).symm
  refine ⟨sampleWorld_deployed 0, _, hrun, ?_, rfl⟩
  refine Nat.lt_of_lt_of_le ?_ (visible_le_liabilities 7)
  decide +kernel

end AdvFoundry.Rebase
