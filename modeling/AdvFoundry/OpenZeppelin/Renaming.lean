import AdvFoundry.OpenZeppelin.ERC20
import Mathlib.Logic.Equiv.Defs

/-!
# Tokens up to a renaming of accounts

The code of a token treats addresses as names: it compares them, and with the
zero address, and does nothing else with them. So for a permutation of the
addresses that fixes zero, a token and the token with its accounts renamed do
the same on calls that are renamed alike.
-/

namespace AdvFoundry

open Function

section Mappings

variable {κ : Type} [DecidableEq κ] {ρ : Equiv.Perm κ} {m m' : κ → Nat}

/-- One write to two mappings that agree up to a renaming of the keys. -/
theorem update_renamed {α : Type} {f f' : κ → α} (h : ∀ a, f' (ρ a) = f a) (k : κ) (v : α) (a : κ) :
    update f' (ρ k) v (ρ a) = update f k v a := by
  by_cases ha : a = k
  · subst ha
    rw [update_self, update_self]
  · rw [update_of_ne ha, update_of_ne fun he => ha (ρ.injective he), h a]

/-- One write to two nested mappings. -/
theorem update_row_renamed {f f' : κ → κ → Nat} (h : ∀ a b, f' (ρ a) (ρ b) = f a b) (k i : κ)
    (v : Nat) (a b : κ) :
    update f' (ρ k) (update (f' (ρ k)) (ρ i) v) (ρ a) (ρ b) = update f k (update (f k) i v) a b := by
  by_cases ha : a = k
  · subst ha
    rw [update_self, update_self]
    exact update_renamed (h a) i v b
  · rw [update_of_ne ha, update_of_ne fun he => ha (ρ.injective he), h a b]

theorem credit_renamed (h : ∀ a, m' (ρ a) = m a) (k : κ) (v : Nat) (a : κ) :
    credit m' (ρ k) v (ρ a) = credit m k v a := by
  unfold credit
  rw [h k]
  exact update_renamed h k (m k + v) a

theorem debit_renamed (h : ∀ a, m' (ρ a) = m a) (k : κ) (v : Nat) (a : κ) :
    debit m' (ρ k) v (ρ a) = debit m k v a := by
  unfold debit
  rw [h k]
  exact update_renamed h k (m k - v) a

end Mappings

namespace ERC20

/-- `t'` is `t` with every account `a` called `ρ a`. -/
structure Renamed (ρ : Equiv.Perm Address) (t t' : ERC20) : Prop where
  balances : ∀ a, t'.balances (ρ a) = t.balances a
  allowances : ∀ a b, t'.allowances (ρ a) (ρ b) = t.allowances a b
  totalSupply : t'.totalSupply = t.totalSupply

variable {ρ : Equiv.Perm Address} {t t' t₁ : ERC20} {src dst account owner spender sender : Address}
  {value : Nat}

theorem Renamed.symm (h : Renamed ρ t t') : Renamed ρ.symm t' t where
  balances := fun a => by rw [← h.balances, Equiv.apply_symm_apply]
  allowances := fun a b => by
    rw [← h.allowances, Equiv.apply_symm_apply, Equiv.apply_symm_apply]
  totalSupply := h.totalSupply.symm

theorem Renamed.move (h : Renamed ρ t t') (hv : value ≤ t.balances src)
    (hv' : value ≤ t'.balances (ρ src)) :
    Renamed ρ (t.move src dst value hv) (t'.move (ρ src) (ρ dst) value hv') :=
  ⟨credit_renamed (debit_renamed h.balances src value) dst value, h.allowances, h.totalSupply⟩

theorem Renamed.issue (h : Renamed ρ t t') (hv : t.totalSupply + value < uintSize)
    (hv' : t'.totalSupply + value < uintSize) :
    Renamed ρ (t.issue account value hv) (t'.issue (ρ account) value hv') :=
  ⟨credit_renamed h.balances account value, h.allowances, by simp [h.totalSupply]⟩

theorem Renamed.destroy (h : Renamed ρ t t') (hv : value ≤ t.balances account)
    (hv' : value ≤ t'.balances (ρ account)) :
    Renamed ρ (t.destroy account value hv) (t'.destroy (ρ account) value hv') :=
  ⟨debit_renamed h.balances account value, h.allowances, by simp [h.totalSupply]⟩

theorem Renamed.allow (h : Renamed ρ t t') :
    Renamed ρ (t.allow owner spender value) (t'.allow (ρ owner) (ρ spender) value) :=
  ⟨h.balances, update_row_renamed h.allowances owner spender value, h.totalSupply⟩

theorem Renamed.spend (h : Renamed ρ t t') :
    Renamed ρ (t.spend owner spender value) (t'.spend (ρ owner) (ρ spender) value) := by
  unfold ERC20.spend
  rw [h.allowances]
  split
  · exact h.allow
  · exact h

theorem Renamed.canSpend_iff (h : Renamed ρ t t') (hzero : ρ 0 = 0) :
    t'.CanSpend (ρ owner) (ρ spender) value ↔ t.CanSpend owner spender value := by
  have hne : ∀ a, ρ a ≠ 0 ↔ a ≠ 0 := fun a => by rw [← hzero, ρ.injective.ne_iff, hzero]
  unfold CanSpend
  rw [h.allowances, hne, hne]

end ERC20

/-- The call, with every account `a` called `ρ a`. -/
def TokenOp.rename (ρ : Equiv.Perm Address) : TokenOp → TokenOp
  | transfer d v => transfer (ρ d) v
  | approve p v => approve (ρ p) v
  | transferFrom s d v => transferFrom (ρ s) (ρ d) v
  | burnFrom a v => burnFrom (ρ a) v

theorem TokenOp.rename_symm (ρ : Equiv.Perm Address) (op : TokenOp) :
    (op.rename ρ).rename ρ.symm = op := by
  cases op <;> simp [TokenOp.rename]

namespace ERC20

variable {ρ : Equiv.Perm Address} {t t' t₁ : ERC20} {sender : Address}

/-- A call that returns does so on the renamed token as well. -/
theorem Renamed.exec {op : TokenOp} (h : Renamed ρ t t') (hzero : ρ 0 = 0)
    (hop : op.exec sender t = .ok ((), t₁)) :
    ∃ t₁', (op.rename ρ).exec (ρ sender) t' = .ok ((), t₁') ∧ Renamed ρ t₁ t₁' := by
  have hne : ∀ {a}, a ≠ 0 → ρ a ≠ 0 := fun ha he => ha (ρ.injective (he.trans hzero.symm))
  cases op with
  | transfer d v =>
    simp only [TokenOp.exec, Tx.bind_ok, transfer_ok, Tx.pure_ok] at hop
    obtain ⟨_, _, ⟨-, hs, hd, hv, rfl⟩, -, rfl⟩ := hop
    have hv' : v ≤ t'.balances (ρ sender) := by rwa [h.balances]
    refine ⟨_, ?_, h.move hv hv'⟩
    simp only [TokenOp.rename, TokenOp.exec, Tx.bind_ok, transfer_ok, Tx.pure_ok]
    exact ⟨true, _, ⟨rfl, hne hs, hne hd, hv', rfl⟩, trivial, rfl⟩
  | approve p v =>
    simp only [TokenOp.exec, Tx.bind_ok, approve_ok, Tx.pure_ok] at hop
    obtain ⟨_, _, ⟨-, hs, hp, rfl⟩, -, rfl⟩ := hop
    refine ⟨_, ?_, h.allow⟩
    simp only [TokenOp.rename, TokenOp.exec, Tx.bind_ok, approve_ok, Tx.pure_ok]
    exact ⟨true, _, ⟨rfl, hne hs, hne hp, rfl⟩, trivial, rfl⟩
  | transferFrom s d v =>
    simp only [TokenOp.exec, Tx.bind_ok, transferFrom_ok, Tx.pure_ok] at hop
    obtain ⟨_, _, ⟨-, hcan, hs, hd, hv, rfl⟩, -, rfl⟩ := hop
    have hv' : v ≤ (t'.spend (ρ s) (ρ sender) v).balances (ρ s) := by rwa [h.spend.balances]
    refine ⟨_, ?_, h.spend.move hv hv'⟩
    simp only [TokenOp.rename, TokenOp.exec, Tx.bind_ok, transferFrom_ok, Tx.pure_ok]
    exact ⟨true, _, ⟨rfl, (h.canSpend_iff hzero).mpr hcan, hne hs, hne hd, hv', rfl⟩, trivial, rfl⟩
  | burnFrom a v =>
    obtain ⟨hcan, ha, hv, rfl⟩ := burnFrom_ok.mp hop
    have hv' : v ≤ (t'.spend (ρ a) (ρ sender) v).balances (ρ a) := by rwa [h.spend.balances]
    exact ⟨_, burnFrom_ok.mpr ⟨(h.canSpend_iff hzero).mpr hcan, hne ha, hv', rfl⟩,
      h.spend.destroy hv hv'⟩

end ERC20

end AdvFoundry
