import AdvFoundry.Evm.Tx
import Mathlib.Algebra.BigOperators.Group.Finset.Basic
import Mathlib.Algebra.Order.BigOperators.Group.Finset

/-!
# Sums over mappings

A Solidity `mapping(address => uint256)` is a total function that is zero
where nothing was stored. Its sum over all keys is a finite sum, since there
are finitely many addresses. The lemmas here say what a loop of writes leaves,
and how one write changes such a sum; they hold for any finite key type.
-/

namespace AdvFoundry

open Function

variable {κ : Type} [DecidableEq κ]

/-- `m[k] += v`, on a mapping. -/
def credit (m : κ → Nat) (k : κ) (v : Nat) : κ → Nat := update m k (m k + v)

/-- `m[k] -= v`, on a mapping, where the subtraction was checked before. -/
def debit (m : κ → Nat) (k : κ) (v : Nat) : κ → Nat := update m k (m k - v)

theorem credit_apply (m : κ → Nat) (k a : κ) (v : Nat) :
    credit m k v a = if a = k then m a + v else m a := by
  unfold credit
  by_cases h : a = k
  · subst h; simp
  · simp [h]

theorem debit_apply (m : κ → Nat) (k a : κ) (v : Nat) :
    debit m k v a = if a = k then m a - v else m a := by
  unfold debit
  by_cases h : a = k
  · subst h; simp
  · simp [h]

@[simp] theorem credit_self (m : κ → Nat) (k : κ) (v : Nat) : credit m k v k = m k + v := by
  simp [credit_apply]

@[simp] theorem debit_self (m : κ → Nat) (k : κ) (v : Nat) : debit m k v k = m k - v := by
  simp [debit_apply]

theorem credit_of_ne {m : κ → Nat} {k a : κ} {v : Nat} (h : a ≠ k) : credit m k v a = m a := by
  simp [credit_apply, h]

theorem debit_of_ne {m : κ → Nat} {k a : κ} {v : Nat} (h : a ≠ k) : debit m k v a = m a := by
  simp [debit_apply, h]

/-! ## Writes in a loop -/

section Writes

variable {β : Type} {l : List (κ × β)} {m : κ → β} {a : κ}

theorem foldl_update_of_notMem (h : a ∉ l.map Prod.fst) :
    l.foldl (fun m p => update m p.1 p.2) m a = m a := by
  induction l generalizing m with
  | nil => rfl
  | cons p l ih =>
    simp only [List.map_cons, List.mem_cons, not_or] at h
    rw [List.foldl_cons, ih h.2, update_of_ne h.1]

/-- A written key holds one of the values written. -/
theorem foldl_update_mem (h : a ∈ l.map Prod.fst) :
    l.foldl (fun m p => update m p.1 p.2) m a ∈ l.map Prod.snd := by
  induction l generalizing m with
  | nil => cases h
  | cons p l ih =>
    rw [List.foldl_cons, List.map_cons, List.mem_cons]
    by_cases hlater : a ∈ l.map Prod.fst
    · exact .inr (ih hlater)
    · rw [foldl_update_of_notMem hlater]
      rcases List.mem_cons.mp h with rfl | hl
      · exact .inl (update_self ..)
      · exact absurd hl hlater

/-- A key written once holds what was written. -/
theorem foldl_update_of_nodup (h : (l.map Prod.fst).Nodup) {p : κ × β} (hp : p ∈ l) :
    l.foldl (fun m p => update m p.1 p.2) m p.1 = p.2 := by
  induction l generalizing m with
  | nil => cases hp
  | cons q l ih =>
    rw [List.map_cons, List.nodup_cons] at h
    rw [List.foldl_cons]
    rcases List.mem_cons.mp hp with rfl | hl
    · rw [foldl_update_of_notMem h.1, update_self]
    · exact ih h.2 hl

end Writes

/-! ## Sums -/

section Sums

variable [Fintype κ]

/-- One write changes the sum by the difference of the written value. -/
theorem sum_update_add (m : κ → Nat) (k : κ) (v : Nat) :
    ∑ a, update m k v a + m k = ∑ a, m a + v := by
  have hrest : ∑ a ∈ Finset.univ.erase k, update m k v a = ∑ a ∈ Finset.univ.erase k, m a :=
    Finset.sum_congr rfl fun a ha => update_of_ne (Finset.ne_of_mem_erase ha) v m
  have hnew := Finset.add_sum_erase Finset.univ (update m k v) (Finset.mem_univ k)
  have hold := Finset.add_sum_erase Finset.univ m (Finset.mem_univ k)
  rw [hrest, update_self] at hnew
  omega

/-- Two mappings that differ at two keys at most. -/
theorem sum_of_eq_off {m m' : κ → Nat} {k₁ k₂ : κ} (hne : k₁ ≠ k₂)
    (h : ∀ a, a ≠ k₁ → a ≠ k₂ → m' a = m a) :
    ∑ a, m' a + (m k₁ + m k₂) = ∑ a, m a + (m' k₁ + m' k₂) := by
  have hwrites : m' = update (update m k₁ (m' k₁)) k₂ (m' k₂) := by
    funext a
    by_cases h₂ : a = k₂
    · rw [h₂, update_self]
    · rw [update_of_ne h₂]
      by_cases h₁ : a = k₁
      · rw [h₁, update_self]
      · rw [update_of_ne h₁, h a h₁ h₂]
  have hfirst := sum_update_add m k₁ (m' k₁)
  have hsecond := sum_update_add (update m k₁ (m' k₁)) k₂ (m' k₂)
  rw [← hwrites, update_of_ne hne.symm] at hsecond
  omega

theorem sum_credit (m : κ → Nat) (k : κ) (v : Nat) : ∑ a, credit m k v a = ∑ a, m a + v := by
  have h := sum_update_add m k (m k + v)
  unfold credit
  omega

theorem sum_debit {m : κ → Nat} {k : κ} {v : Nat} (hv : v ≤ m k) :
    ∑ a, debit m k v a + v = ∑ a, m a := by
  have h := sum_update_add m k (m k - v)
  unfold debit
  omega

omit [DecidableEq κ] in
theorem le_sum (m : κ → Nat) (k : κ) : m k ≤ ∑ a, m a :=
  Finset.single_le_sum (fun _ _ => Nat.zero_le _) (Finset.mem_univ k)

/-- One write to a nested mapping, seen in the sum over one column. -/
theorem sum_update_row {ι : Type} [DecidableEq ι] (m : κ → ι → Nat) (k : κ) (i j : ι) (v : Nat) :
    ∑ a, update m k (update (m k) i v) a j + (if j = i then m k i else 0) =
      ∑ a, m a j + (if j = i then v else 0) := by
  by_cases hj : j = i
  · subst hj
    have hcolumn : (fun a => update m k (update (m k) j v) a j) = update (fun a => m a j) k v := by
      funext a
      by_cases ha : a = k
      · subst ha; simp
      · simp [ha]
    rw [hcolumn]
    simpa using sum_update_add (fun a => m a j) k v
  · have hcolumn : (fun a => update m k (update (m k) i v) a j) = fun a => m a j := by
      funext a
      by_cases ha : a = k
      · subst ha; simp [hj]
      · simp [ha]
    rw [hcolumn]
    simp [hj]

end Sums

end AdvFoundry
