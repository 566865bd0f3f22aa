import AdvFoundry.Evm.Ledger

/-!
# OpenZeppelin ERC20 with ERC20Burnable

The token every contract of the repository builds on, as OpenZeppelin v5 has
it: no fee, no hook, and no way to move tokens but the functions below. The
vendored v4.8.3 under `FundMe/lib` computes the same balances, allowances and
supply; v5 only groups the three balance writes in `_update` and names its
errors.

OpenZeppelin adds to a balance without an overflow check, because the balances
sum to the supply and the supply is a `uint256`. `ERC20` carries these two
facts, so the unchecked additions are plain additions here.
-/

namespace AdvFoundry

/-- Storage of an `ERC20` contract. -/
@[ext]
structure ERC20 where
  balances : Address → Nat
  allowances : Address → Address → Nat
  totalSupply : Nat
  sum_balances : ∑ a, balances a = totalSupply
  totalSupply_lt : totalSupply < uintSize

/-- The errors of `IERC20Errors`, with their arguments. -/
inductive ERC20Error
  | insufficientBalance (sender : Address) (balance needed : Nat)
  | insufficientAllowance (spender : Address) (allowance needed : Nat)
  | invalidSender (sender : Address)
  | invalidReceiver (receiver : Address)
  | invalidApprover (approver : Address)
  | invalidSpender (spender : Address)
  deriving DecidableEq

namespace ERC20

open Function

/-- A token of which nothing was issued. -/
def empty : ERC20 where
  balances := fun _ => 0
  allowances := fun _ _ => 0
  totalSupply := 0
  sum_balances := by simp
  totalSupply_lt := by decide

theorem balance_le_supply (t : ERC20) (a : Address) : t.balances a ≤ t.totalSupply := by
  rw [← t.sum_balances]
  exact le_sum t.balances a

/-! ## The writes of `_update` and `_approve` -/

/-- The write of `_transfer`: `value` leaves `src`, then arrives at `dst`. -/
def move (t : ERC20) (src dst : Address) (value : Nat) (h : value ≤ t.balances src) : ERC20 :=
  { t with
    balances := credit (debit t.balances src value) dst value
    sum_balances := by
      rw [sum_credit, ← t.sum_balances]
      exact sum_debit h }

/-- The write of `_mint`, once the supply was found not to overflow. -/
def issue (t : ERC20) (account : Address) (value : Nat)
    (h : t.totalSupply + value < uintSize) : ERC20 :=
  { t with
    balances := credit t.balances account value
    totalSupply := t.totalSupply + value
    sum_balances := by rw [sum_credit, t.sum_balances]
    totalSupply_lt := h }

/-- The write of `_burn`. -/
def destroy (t : ERC20) (account : Address) (value : Nat)
    (h : value ≤ t.balances account) : ERC20 :=
  { t with
    balances := debit t.balances account value
    totalSupply := t.totalSupply - value
    sum_balances := by
      have hs := sum_debit h
      rw [t.sum_balances] at hs
      omega
    totalSupply_lt := Nat.lt_of_le_of_lt (Nat.sub_le _ _) t.totalSupply_lt }

/-- The write of `_approve`. -/
def allow (t : ERC20) (owner spender : Address) (value : Nat) : ERC20 :=
  { t with allowances := update t.allowances owner (update (t.allowances owner) spender value) }

/-- The allowance left by `_spendAllowance`: the maximal allowance is infinite
and is never reduced. -/
def spend (t : ERC20) (owner spender : Address) (value : Nat) : ERC20 :=
  if t.allowances owner spender < uintMax then
    t.allow owner spender (t.allowances owner spender - value)
  else t

/-! ## Internal functions -/

abbrev ERC20Tx := Tx ERC20Error ERC20

def _transfer (src dst : Address) (value : Nat) : ERC20Tx Unit := do
  Tx.revertIf (src = 0) (.invalidSender 0)
  Tx.revertIf (dst = 0) (.invalidReceiver 0)
  Tx.tryModify fun t =>
    if h : value ≤ t.balances src then .ok (t.move src dst value h)
    else .error (.error (.insufficientBalance src (t.balances src) value))

def _mint (account : Address) (value : Nat) : ERC20Tx Unit := do
  Tx.revertIf (account = 0) (.invalidReceiver 0)
  Tx.tryModify fun t =>
    if h : t.totalSupply + value < uintSize then .ok (t.issue account value h)
    else .error (.panic .arithmetic)

def _burn (account : Address) (value : Nat) : ERC20Tx Unit := do
  Tx.revertIf (account = 0) (.invalidSender 0)
  Tx.tryModify fun t =>
    if h : value ≤ t.balances account then .ok (t.destroy account value h)
    else .error (.error (.insufficientBalance account (t.balances account) value))

def _approve (owner spender : Address) (value : Nat) : ERC20Tx Unit := do
  Tx.revertIf (owner = 0) (.invalidApprover 0)
  Tx.revertIf (spender = 0) (.invalidSpender 0)
  Tx.modify fun t => t.allow owner spender value

def _spendAllowance (owner spender : Address) (value : Nat) : ERC20Tx Unit := do
  let t ← Tx.get
  let currentAllowance := t.allowances owner spender
  if currentAllowance < uintMax then
    Tx.revertIf (currentAllowance < value)
      (.insufficientAllowance spender currentAllowance value)
    _approve owner spender (currentAllowance - value)
  else
    pure ()

/-! ## Public functions, with the caller as first argument -/

def transfer (sender dst : Address) (value : Nat) : ERC20Tx Bool := do
  _transfer sender dst value
  pure true

def approve (sender spender : Address) (value : Nat) : ERC20Tx Bool := do
  _approve sender spender value
  pure true

def transferFrom (sender src dst : Address) (value : Nat) : ERC20Tx Bool := do
  _spendAllowance src sender value
  _transfer src dst value
  pure true

/-- `ERC20Burnable.burn`. -/
def burn (sender : Address) (value : Nat) : ERC20Tx Unit :=
  _burn sender value

/-- `ERC20Burnable.burnFrom`. -/
def burnFrom (sender account : Address) (value : Nat) : ERC20Tx Unit := do
  _spendAllowance account sender value
  _burn account value

/-! ## When each function returns, and with which storage -/

section Writes

variable {t : ERC20} {src dst account owner spender a b : Address} {value : Nat}

@[simp] theorem move_balances {h : value ≤ t.balances src} :
    (t.move src dst value h).balances = credit (debit t.balances src value) dst value := rfl

@[simp] theorem move_allowances {h : value ≤ t.balances src} :
    (t.move src dst value h).allowances = t.allowances := rfl

@[simp] theorem move_totalSupply {h : value ≤ t.balances src} :
    (t.move src dst value h).totalSupply = t.totalSupply := rfl

@[simp] theorem issue_balances {h : t.totalSupply + value < uintSize} :
    (t.issue account value h).balances = credit t.balances account value := rfl

@[simp] theorem issue_allowances {h : t.totalSupply + value < uintSize} :
    (t.issue account value h).allowances = t.allowances := rfl

@[simp] theorem issue_totalSupply {h : t.totalSupply + value < uintSize} :
    (t.issue account value h).totalSupply = t.totalSupply + value := rfl

@[simp] theorem destroy_balances {h : value ≤ t.balances account} :
    (t.destroy account value h).balances = debit t.balances account value := rfl

@[simp] theorem destroy_allowances {h : value ≤ t.balances account} :
    (t.destroy account value h).allowances = t.allowances := rfl

@[simp] theorem destroy_totalSupply {h : value ≤ t.balances account} :
    (t.destroy account value h).totalSupply = t.totalSupply - value := rfl

@[simp] theorem allow_balances : (t.allow owner spender value).balances = t.balances := rfl

@[simp] theorem allow_totalSupply :
    (t.allow owner spender value).totalSupply = t.totalSupply := rfl

/-- `approve` writes one entry, of its own owner. -/
theorem allow_allowances_of_ne (h : a ≠ owner) :
    (t.allow owner spender value).allowances a = t.allowances a := by
  simp [allow, h]

@[simp] theorem spend_balances : (t.spend owner spender value).balances = t.balances := by
  unfold spend; split <;> rfl

@[simp] theorem spend_totalSupply :
    (t.spend owner spender value).totalSupply = t.totalSupply := by
  unfold spend; split <;> rfl

theorem spend_allowances_of_ne (h : a ≠ owner) :
    (t.spend owner spender value).allowances a = t.allowances a := by
  unfold spend
  split
  · exact allow_allowances_of_ne h
  · rfl

/-- What the owner's allowances are after spending depends on these only. -/
theorem spend_allowances_congr {t' : ERC20} (h : t'.allowances owner = t.allowances owner) :
    (t'.spend owner spender value).allowances owner =
      (t.spend owner spender value).allowances owner := by
  unfold spend
  rw [h]
  split
  · simp [allow, h]
  · exact h

/-- Spending never raises an allowance. -/
theorem spend_allowances_le : (t.spend owner spender value).allowances a b ≤ t.allowances a b := by
  unfold spend
  split
  · by_cases ha : a = owner
    · subst ha
      by_cases hb : b = spender
      · subst hb; simp [allow]
      · simp [allow, hb]
    · rw [allow_allowances_of_ne ha]
  · exact Nat.le_refl _

/-- Tokens moved to an account and destroyed there are destroyed where they
came from. -/
theorem move_destroy {h : value ≤ t.balances src}
    {h' : value ≤ (t.move src dst value h).balances dst} :
    (t.move src dst value h).destroy dst value h' = t.destroy src value h := by
  ext a
  · simp only [destroy_balances, move_balances, debit_apply, credit_apply]
    split_ifs <;> omega
  · rfl
  · rfl

end Writes

/-- `_spendAllowance` passes: the allowance is infinite, or it covers `value`. -/
def CanSpend (t : ERC20) (owner spender : Address) (value : Nat) : Prop :=
  t.allowances owner spender < uintMax →
    value ≤ t.allowances owner spender ∧ owner ≠ 0 ∧ spender ≠ 0

section Returns

variable {t t' : ERC20} {sender src dst account owner spender : Address} {value : Nat}

theorem _transfer_ok {u : Unit} :
    _transfer src dst value t = .ok (u, t') ↔
      src ≠ 0 ∧ dst ≠ 0 ∧ ∃ h : value ≤ t.balances src, t' = t.move src dst value h := by
  by_cases hv : value ≤ t.balances src <;> simp [_transfer, hv, @eq_comm ERC20 t']

theorem _mint_ok {u : Unit} :
    _mint account value t = .ok (u, t') ↔
      account ≠ 0 ∧ ∃ h : t.totalSupply + value < uintSize, t' = t.issue account value h := by
  by_cases hv : t.totalSupply + value < uintSize <;> simp [_mint, hv, @eq_comm ERC20 t']

theorem _burn_ok {u : Unit} :
    _burn account value t = .ok (u, t') ↔
      account ≠ 0 ∧ ∃ h : value ≤ t.balances account, t' = t.destroy account value h := by
  by_cases hv : value ≤ t.balances account <;> simp [_burn, hv, @eq_comm ERC20 t']

theorem _approve_ok {u : Unit} :
    _approve owner spender value t = .ok (u, t') ↔
      owner ≠ 0 ∧ spender ≠ 0 ∧ t' = t.allow owner spender value := by
  simp [_approve]

theorem _spendAllowance_ok {u : Unit} :
    _spendAllowance owner spender value t = .ok (u, t') ↔
      t.CanSpend owner spender value ∧ t' = t.spend owner spender value := by
  by_cases hf : t.allowances owner spender < uintMax
  · simp [_spendAllowance, CanSpend, spend, hf, _approve_ok, and_assoc]
  · simp [_spendAllowance, CanSpend, spend, hf]

theorem transfer_ok {b : Bool} :
    transfer sender dst value t = .ok (b, t') ↔
      b = true ∧ sender ≠ 0 ∧ dst ≠ 0 ∧
        ∃ h : value ≤ t.balances sender, t' = t.move sender dst value h := by
  simp only [transfer, Tx.bind_ok, _transfer_ok, Tx.pure_ok]
  constructor
  · rintro ⟨_, _, h, rfl, rfl⟩
    exact ⟨rfl, h⟩
  · rintro ⟨rfl, h⟩
    exact ⟨(), t', h, rfl, rfl⟩

theorem approve_ok {b : Bool} :
    approve sender spender value t = .ok (b, t') ↔
      b = true ∧ sender ≠ 0 ∧ spender ≠ 0 ∧ t' = t.allow sender spender value := by
  simp only [approve, Tx.bind_ok, _approve_ok, Tx.pure_ok]
  constructor
  · rintro ⟨_, _, h, rfl, rfl⟩
    exact ⟨rfl, h⟩
  · rintro ⟨rfl, h⟩
    exact ⟨(), t', h, rfl, rfl⟩

theorem transferFrom_ok {b : Bool} :
    transferFrom sender src dst value t = .ok (b, t') ↔
      b = true ∧ t.CanSpend src sender value ∧ src ≠ 0 ∧ dst ≠ 0 ∧
        ∃ h : value ≤ (t.spend src sender value).balances src,
          t' = (t.spend src sender value).move src dst value h := by
  simp only [transferFrom, Tx.bind_ok, _spendAllowance_ok, _transfer_ok, Tx.pure_ok]
  constructor
  · rintro ⟨_, _, ⟨hc, rfl⟩, _, _, h, rfl, rfl⟩
    exact ⟨rfl, hc, h⟩
  · rintro ⟨rfl, hc, h⟩
    exact ⟨(), _, ⟨hc, rfl⟩, (), t', h, rfl, rfl⟩

theorem burnFrom_ok {u : Unit} :
    burnFrom sender account value t = .ok (u, t') ↔
      t.CanSpend account sender value ∧ account ≠ 0 ∧
        ∃ h : value ≤ (t.spend account sender value).balances account,
          t' = (t.spend account sender value).destroy account value h := by
  simp only [burnFrom, Tx.bind_ok, _spendAllowance_ok, _burn_ok]
  constructor
  · rintro ⟨_, _, ⟨hc, rfl⟩, h⟩
    exact ⟨hc, h⟩
  · rintro ⟨hc, h⟩
    exact ⟨(), _, ⟨hc, rfl⟩, h⟩

end Returns

/-! ## Who is short when a transfer fails for lack of tokens -/

section Shortfall

variable {t : ERC20} {sender src dst account a : Address} {value b n : Nat}

theorem _transfer_short
    (h : _transfer src dst value t = .error (.error (.insufficientBalance a b n))) :
    a = src ∧ t.balances src < value := by
  simp only [_transfer, Tx.bind_error, Tx.revertIf_error, Tx.revertIf_ok, Tx.tryModify_error] at h
  obtain ⟨-, h⟩ | ⟨_, _, ⟨-, rfl⟩, ⟨-, h⟩ | ⟨_, _, ⟨-, rfl⟩, h⟩⟩ := h
  · cases h
  · cases h
  · split at h
    · cases h
    · cases h
      exact ⟨rfl, by omega⟩

theorem transfer_short
    (h : transfer sender dst value t = .error (.error (.insufficientBalance a b n))) :
    a = sender ∧ t.balances sender < value := by
  simp only [transfer, Tx.bind_error, Tx.pure_ne_error, and_false, exists_false, or_false] at h
  exact _transfer_short h

theorem _spendAllowance_not_short {owner spender : Address} :
    _spendAllowance owner spender value t ≠ .error (.error (.insufficientBalance a b n)) := by
  intro h
  simp only [_spendAllowance, Tx.bind_error, Tx.get_ne_error, Tx.get_ok, false_or] at h
  obtain ⟨_, _, ⟨rfl, rfl⟩, h⟩ := h
  split at h
  · simp only [_approve, Tx.bind_error, Tx.revertIf_error, Tx.modify_ne_error, and_false, exists_false,
      or_false] at h
    obtain ⟨-, h⟩ | ⟨_, _, -, ⟨-, h⟩ | ⟨_, _, -, -, h⟩⟩ := h <;> cases h
  · exact Tx.pure_ne_error h

theorem transferFrom_short
    (h : transferFrom sender src dst value t = .error (.error (.insufficientBalance a b n))) :
    a = src := by
  simp only [transferFrom, Tx.bind_error, Tx.pure_ne_error, and_false, exists_false, or_false,
    _spendAllowance_not_short, false_or] at h
  obtain ⟨_, _, -, h⟩ := h
  exact (_transfer_short h).1

end Shortfall

end ERC20

/-! ## A holder that never calls -/

/-- The public functions of an `ERC20Burnable` that any account may call on any
such token. -/
inductive TokenOp
  | transfer (dst : Address) (value : Nat)
  | approve (spender : Address) (value : Nat)
  | transferFrom (src dst : Address) (value : Nat)
  | burnFrom (account : Address) (value : Nat)

namespace TokenOp

def exec (sender : Address) : TokenOp → Tx ERC20Error ERC20 Unit
  | transfer d v => do let _ ← ERC20.transfer sender d v
  | approve p v => do let _ ← ERC20.approve sender p v
  | transferFrom s d v => do let _ ← ERC20.transferFrom sender s d v
  | burnFrom a v => ERC20.burnFrom sender a v

/-- What the call sends to `holder`. -/
def sentTo (holder : Address) : TokenOp → Nat
  | transfer d v => if d = holder then v else 0
  | transferFrom _ d v => if d = holder then v else 0
  | _ => 0

/-- What the call destroys. -/
def destroyed : TokenOp → Nat
  | burnFrom _ v => v
  | _ => 0

end TokenOp

namespace ERC20

/-- `holder` has approved nobody. -/
def NoApproval (t : ERC20) (holder : Address) : Prop := ∀ spender, t.allowances holder spender = 0

variable {t t' : ERC20} {holder sender : Address}

theorem NoApproval.of_eq (h : t.NoApproval holder) (ha : t'.allowances holder = t.allowances holder) :
    t'.NoApproval holder := by
  intro spender
  rw [ha]
  exact h spender

/-- Nothing can be spent without an approval. -/
theorem CanSpend.eq_zero {spender : Address} {value : Nat} (h : t.CanSpend holder spender value)
    (hno : t.NoApproval holder) : value = 0 := by
  have hle := (h (by rw [hno spender]; decide)).1
  rw [hno spender] at hle
  exact Nat.le_zero.mp hle

theorem spend_noApproval {owner spender : Address} {value : Nat} (hno : t.NoApproval holder) :
    (t.spend owner spender value).NoApproval holder := by
  intro p
  have hle : (t.spend owner spender value).allowances holder p ≤ t.allowances holder p :=
    spend_allowances_le
  rw [hno p] at hle
  exact Nat.le_zero.mp hle

/-- A write to one token, among tokens in which `holder` has approved nobody. -/
theorem noApproval_update {tokens : Address → ERC20} {token : Address}
    (hno : ∀ t, (tokens t).NoApproval holder) (ht : t.NoApproval holder) (other : Address) :
    (Function.update tokens token t other).NoApproval holder := by
  rcases eq_or_ne other token with rfl | hne
  · rw [Function.update_self]
    exact ht
  · rw [Function.update_of_ne hne]
    exact hno other

/-- Only `burnFrom` changes the supply. -/
theorem supply_of_exec {op : TokenOp} (h : op.exec sender t = .ok ((), t')) :
    t'.totalSupply + op.destroyed = t.totalSupply := by
  cases op with
  | transfer d v =>
    simp only [TokenOp.exec, Tx.bind_ok, transfer_ok, Tx.pure_ok] at h
    obtain ⟨_, _, ⟨-, -, -, _, rfl⟩, -, rfl⟩ := h
    rfl
  | approve p v =>
    simp only [TokenOp.exec, Tx.bind_ok, approve_ok, Tx.pure_ok] at h
    obtain ⟨_, _, ⟨-, -, -, rfl⟩, -, rfl⟩ := h
    rfl
  | transferFrom s d v =>
    simp only [TokenOp.exec, Tx.bind_ok, transferFrom_ok, Tx.pure_ok] at h
    obtain ⟨_, _, ⟨-, -, -, -, _, rfl⟩, -, rfl⟩ := h
    simp [TokenOp.destroyed]
  | burnFrom a v =>
    obtain ⟨-, -, hv, rfl⟩ := burnFrom_ok.mp h
    have hle := Nat.le_trans hv (balance_le_supply _ a)
    simp only [destroy_totalSupply, TokenOp.destroyed, spend_totalSupply] at hle ⊢
    omega

/-- An account that approved nobody and does not call keeps what it has and
gains what is sent to it. -/
theorem passive_holder {op : TokenOp} (h : op.exec sender t = .ok ((), t')) (hne : sender ≠ holder)
    (hno : t.NoApproval holder) :
    t'.balances holder = t.balances holder + op.sentTo holder ∧ t'.NoApproval holder := by
  cases op with
  | transfer d v =>
    simp only [TokenOp.exec, Tx.bind_ok, transfer_ok, Tx.pure_ok] at h
    obtain ⟨_, _, ⟨-, -, -, _, rfl⟩, -, rfl⟩ := h
    refine ⟨?_, hno⟩
    simp only [TokenOp.sentTo, move_balances, credit_apply, debit_of_ne hne.symm, eq_comm]
    split <;> rfl
  | approve p v =>
    simp only [TokenOp.exec, Tx.bind_ok, approve_ok, Tx.pure_ok] at h
    obtain ⟨_, _, ⟨-, -, -, rfl⟩, -, rfl⟩ := h
    exact ⟨rfl, hno.of_eq (allow_allowances_of_ne hne.symm)⟩
  | transferFrom s d v =>
    simp only [TokenOp.exec, Tx.bind_ok, transferFrom_ok, Tx.pure_ok] at h
    obtain ⟨_, _, ⟨-, hs, -, -, _, rfl⟩, -, rfl⟩ := h
    refine ⟨?_, spend_noApproval hno⟩
    -- a transfer out of the holder is one of zero
    have hkept : debit t.balances s v holder = t.balances holder := by
      by_cases he : holder = s
      · subst he
        simp [hs.eq_zero hno]
      · exact debit_of_ne he
    simp only [TokenOp.sentTo, move_balances, spend_balances, credit_apply, hkept, eq_comm]
    split <;> rfl
  | burnFrom a v =>
    obtain ⟨hs, -, _, rfl⟩ := burnFrom_ok.mp h
    refine ⟨?_, spend_noApproval hno⟩
    by_cases he : holder = a
    · subst he
      simp [TokenOp.sentTo, hs.eq_zero hno]
    · simp [TokenOp.sentTo, debit_of_ne he]

end ERC20

end AdvFoundry
