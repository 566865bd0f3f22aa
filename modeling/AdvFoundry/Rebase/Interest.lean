import Mathlib.Tactic.Ring
import AdvFoundry.Rebase.Rates

/-!
# What moves interest

Interest is linear between two settlements of an account, and a settlement makes
the interest so far principal. A transfer of nothing settles both parties, and
anyone can make one. So it leaves the balance of the moment as it is and
restarts the growth from it (`poke_restarts_growth`): from then on there is
interest on the interest, which the linear formula from the older settlement
does not have (`poke_changes_balance`).

A rate belongs to an account, not to the tokens in it. Tokens that move earn the
rate of their new account, and a receiver without a rate takes the payer's for
all it has. `transfer_liability` is the exact law; a transfer can raise what the
token owes per second (`transfer_raises_liability`).
-/

namespace AdvFoundry.Rebase

open Function AccountingLemmas RateLemmas

/-- Payer, receiver and value of a transfer. -/
def RebaseOp.movement (c : Ctx) : RebaseOp → Option (Address × Address × Nat)
  | transfer dst value => some (c.sender, dst, value)
  | transferFrom src dst value => some (src, dst, value)
  | _ => none

/-- The interest of all accounts for one second, times `PRECISION_FACTOR`.
Irreducible, since a sum over all addresses is not to be evaluated. -/
@[irreducible] def RebaseToken.liabilityPerSecond (s : RebaseToken) (timestamp : Nat) : Nat :=
  ∑ u, s.visible timestamp u * s.intrestRateToUser u

namespace InterestLemmas

variable {c : Ctx} {op : RebaseOp} {s s' : RebaseToken} {src dst u : Address} {value T : Nat}

/-! ## A transfer in visible balances and rates -/

theorem movement_cases (h : op.movement c = some (src, dst, value)) :
    op = .transfer dst value ∧ src = c.sender ∨ op = .transferFrom src dst value := by
  cases op with
  | transfer d v =>
    cases h
    exact .inl ⟨rfl, rfl⟩
  | transferFrom f d v =>
    cases h
    exact .inr rfl
  | mint d a | burn f a | approve p v | setIntrestRate r | grantMintAndBurnRole a | renounceRole a
  | transferOwnership o | renounceOwnership => cases h

theorem movement_exact (hmove : op.movement c = some (src, dst, value))
    (h : op.exec c s = .ok ((), s')) :
    Exact c.timestamp (fun a => a = src ∨ a = dst)
      (fun a => if a = src then s.explicitAmount c.timestamp src value else 0)
      (fun a => if a = dst then s.explicitAmount c.timestamp src value else 0) s s' := by
  obtain ⟨rfl, rfl⟩ | rfl := movement_cases hmove
  · exact exact_exec h
  · exact exact_exec h

theorem movement_written (hmove : op.movement c = some (src, dst, value))
    (h : op.exec c s = .ok ((), s')) :
    Written c.timestamp (fun a => a = src ∨ a = dst)
      (fun a => if a = dst then s.inherited src dst else s.intrestRateToUser a) s s' := by
  obtain ⟨rfl, rfl⟩ | rfl := movement_cases hmove
  · exact exec_written h
  · exact exec_written h

/-! ## Interest on interest -/

/-- An account just settled grows from what it shows. -/
theorem visible_from {t : Nat} (hlast : s.lastUpdatedTimeStampToUser u = T) :
    s.visible t u =
      s.visible T u * (PRECISION_FACTOR + (t - T) * s.intrestRateToUser u) / PRECISION_FACTOR := by
  rw [visible_of_settled hlast, RebaseToken.visible, hlast]

/-- To settle in between costs one unit of rounding at most: the principal `p`
grows by `g` up to the settlement and by `f` after it. -/
theorem split_growth_le (p f g : Nat) {d : Nat} (hd : 0 < d) :
    p * (d + (g + f)) / d ≤ p * (d + g) / d * (d + f) / d + 1 := by
  have hgrown : p ≤ p * (d + g) / d := by
    rw [Nat.le_div_iff_mul_le hd]
    exact Nat.mul_le_mul_left _ (Nat.le_add_right _ _)
  have hrounded : p * (d + g) < d * (p * (d + g) / d + 1) := Nat.lt_mul_div_succ _ hd
  generalize p * (d + g) / d = settled at hgrown hrounded ⊢
  have hwhole : p * (d + (g + f)) ≤ settled * (d + f) + d := by
    calc p * (d + (g + f)) = p * (d + g) + p * f := by ring
      _ ≤ d * (settled + 1) + settled * f :=
        Nat.add_le_add hrounded.le (Nat.mul_le_mul_right _ hgrown)
      _ = settled * (d + f) + d := by ring
  calc p * (d + (g + f)) / d ≤ (settled * (d + f) + d) / d := Nat.div_le_div_right hwhole
    _ = settled * (d + f) / d + 1 := Nat.add_div_right _ hd

/-- Calls that do not have `u` as a party leave all of its growth alone. -/
theorem untouched_run {x x' : Timed} {labels : List (Ctx × RebaseOp)}
    (hrun : Run Timed.Step x labels x') (hothers : ∀ l ∈ labels, ¬ l.2.party l.1 u) (t : Nat) :
    x'.token.visible t u = x.token.visible t u := by
  refine Run.invariant (I := fun y => y.token.visible t u = x.token.visible t u)
    (C := fun l => ¬ l.2.party l.1 u) (fun y l y' hl hy h => ?_) hrun hothers rfl
  have hwritten := exec_written (step_ok h).2.1
  obtain ⟨hbal, hlast⟩ := hwritten.others u hl
  rw [← hy]
  exact visible_congr hbal ((hwritten.rate_eq u).trans (rateAfter_of_not_party hl)) hlast

/-- A transfer of nothing, as a party of it sees it. -/
theorem poke_visible (hmove : op.movement c = some (src, dst, 0)) (hu : u = src ∨ u = dst)
    (h : op.exec c s = .ok ((), s')) :
    s'.visible c.timestamp u = s.visible c.timestamp u ∧
      s'.lastUpdatedTimeStampToUser u = c.timestamp := by
  have hnothing : s.explicitAmount c.timestamp src 0 = 0 := if_neg (by decide)
  have hvisible := (movement_exact hmove h).visible_eq u
  simp only [hnothing, ite_self] at hvisible
  exact ⟨hvisible, ((movement_written hmove h).parties u hu).2⟩

/-- A transfer does not lower a rate. -/
theorem movement_rate_le (hmove : op.movement c = some (src, dst, value)) :
    s.intrestRateToUser u ≤ op.rateAfter c s u := by
  have hreceiver : ∀ src dst, s.intrestRateToUser u ≤
      if u = dst then s.inherited src dst else s.intrestRateToUser u := by
    intro src dst
    unfold RebaseToken.inherited
    split_ifs with hu hzero
    · rw [hu, hzero]
      exact Nat.zero_le _
    · rw [hu]
    · exact Nat.le_refl _
  obtain ⟨rfl, rfl⟩ | rfl := movement_cases hmove
  · exact hreceiver _ _
  · exact hreceiver _ _

/-- The growth since the last settlement, split at `T`. -/
theorem visible_split {t : Nat} (hlast : s.lastUpdatedTimeStampToUser u ≤ T) (ht : T ≤ t)
    {rate : Nat} (hrate : s.intrestRateToUser u ≤ rate) :
    s.visible t u ≤
      s.visible T u * (PRECISION_FACTOR + (t - T) * rate) / PRECISION_FACTOR + 1 := by
  have hsum : (t - s.lastUpdatedTimeStampToUser u) * s.intrestRateToUser u =
      (T - s.lastUpdatedTimeStampToUser u) * s.intrestRateToUser u +
        (t - T) * s.intrestRateToUser u := by
    rw [← Nat.add_mul]
    congr 1
    omega
  have hsplit := split_growth_le (s.erc20.balances u) ((t - T) * s.intrestRateToUser u)
    ((T - s.lastUpdatedTimeStampToUser u) * s.intrestRateToUser u) (d := PRECISION_FACTOR) (by decide)
  rw [← hsum] at hsplit
  refine Nat.le_trans hsplit (Nat.succ_le_succ (Nat.div_le_div_right (Nat.mul_le_mul_left _ ?_)))
  exact Nat.add_le_add_left (Nat.mul_le_mul_left _ hrate) _

end InterestLemmas

open InterestLemmas RebaseToken

/-- A transfer of nothing at `c.timestamp`, compared with no transfer, when after
it nothing else is done to the party `u` until `t`. It leaves the balance as it
is and restarts the linear growth from it, with the rate `u` has then: its own,
or the payer's for a receiver without one. Without the transfer the growth goes
on from the older settlement. The poked balance is the smaller one by a unit of
rounding at most, and the two are the same when no time or no rate is left to
act, or when `u` had been settled in the same block and keeps its rate. -/
theorem poke_restarts_growth {c : Ctx} {op : RebaseOp} {s s' : RebaseToken}
    {src dst u : Address} {t now : Nat} {poked unpoked : Timed}
    {labels labels' : List (Ctx × RebaseOp)}
    (hmove : op.movement c = some (src, dst, 0)) (hu : u = src ∨ u = dst)
    (hpoke : op.exec c s = .ok ((), s')) (ht : c.timestamp ≤ t)
    (hpoked : Run Timed.Step ⟨s', c.timestamp⟩ labels poked)
    (hlabels : ∀ l ∈ labels, ¬ l.2.party l.1 u)
    (hunpoked : Run Timed.Step ⟨s, now⟩ labels' unpoked)
    (hlabels' : ∀ l ∈ labels', ¬ l.2.party l.1 u) :
    s'.visible c.timestamp u = s.visible c.timestamp u ∧
    poked.token.visible t u = s.visible c.timestamp u *
      (PRECISION_FACTOR + (t - c.timestamp) * op.rateAfter c s u) / PRECISION_FACTOR ∧
    unpoked.token.visible t u = s.erc20.balances u *
      (PRECISION_FACTOR + (t - s.lastUpdatedTimeStampToUser u) * s.intrestRateToUser u) /
        PRECISION_FACTOR ∧
    unpoked.token.visible t u ≤ poked.token.visible t u + 1 ∧
    (c.timestamp = t ∨ op.rateAfter c s u = 0 ∨
      s.lastUpdatedTimeStampToUser u = c.timestamp ∧
        op.rateAfter c s u = s.intrestRateToUser u →
      poked.token.visible t u = unpoked.token.visible t u) ∧
    (∀ b, poked.token.balanceOf t u = .ok b → b = poked.token.visible t u) ∧
    (∀ b, unpoked.token.balanceOf t u = .ok b → b = unpoked.token.visible t u) := by
  obtain ⟨hsame, hlast'⟩ := poke_visible hmove hu hpoke
  have hwritten := exec_written hpoke
  have hlast := ((movement_written hmove hpoke).parties u hu).1
  have hunpokedAt : unpoked.token.visible t u = s.visible t u := untouched_run hunpoked hlabels' t
  have hpokedAt : poked.token.visible t u = s.visible c.timestamp u *
      (PRECISION_FACTOR + (t - c.timestamp) * op.rateAfter c s u) / PRECISION_FACTOR := by
    rw [untouched_run hpoked hlabels t, visible_from hlast', hsame, hwritten.rate_eq]
  refine ⟨hsame, hpokedAt, hunpokedAt, ?_, fun hcase => ?_, fun b hb => (balanceOf_ok hb).1,
    fun b hb => (balanceOf_ok hb).1⟩
  · rw [hunpokedAt, hpokedAt]
    exact visible_split hlast ht (movement_rate_le hmove)
  · rw [hunpokedAt, hpokedAt]
    obtain rfl | hzero | ⟨hnow, hrate⟩ := hcase
    · rw [Nat.sub_self, Nat.zero_mul, Nat.add_zero]
      exact Nat.mul_div_cancel _ (by decide)
    · -- a rate that is zero after the transfer was zero before it
      have hbefore : s.intrestRateToUser u = 0 :=
        Nat.le_zero.mp (hzero ▸ movement_rate_le (u := u) (s := s) hmove)
      simp only [hzero, visible, hbefore, Nat.mul_zero, Nat.add_zero]
      exact Nat.mul_div_cancel _ (by decide)
    · rw [hrate]
      exact (visible_from hnow).symm

/-- Account `7` has `10 ^ 20` since the time `1000`. -/
def heldLabels : List (Ctx × RebaseOp) :=
  [(⟨9, 1000⟩, .grantMintAndBurnRole 1), (⟨1, 1000⟩, .mint 7 (10 ^ 20))]

/-- A stranger moves nothing from `7` to `8` at the time `1001000`. -/
def strangersPoke : RebaseOp := .transferFrom 7 8 0

theorem held_run : ∃ x s', Run Timed.Step ⟨freshToken, 1000⟩ heldLabels x ∧ x.now ≤ 1001000 ∧
    strangersPoke.exec ⟨6, 1001000⟩ x.token = .ok ((), s') ∧
    x.token.visible 1001000 7 = 105 * 10 ^ 18 ∧ x.token.intrestRateToUser 7 = 5 * 10 ^ 10 ∧
    x.token.balanceOf 2001000 7 = .ok (110 * 10 ^ 18) ∧
    s'.balanceOf 2001000 7 = .ok (11025 * 10 ^ 16) :=
  ⟨_, _, Run.of_foldlM (fun _ _ _ h => h) (Option.some_get (by decide +kernel)).symm,
    by decide +kernel, Tx.ok_after (by decide +kernel), by decide +kernel, by decide +kernel,
    by rfl, by rfl⟩

/-- The poke compounds: at `2001000` the balance is what was shown at `1001000`
with the interest of the second half on it. -/
theorem poke_restarts_growth_stranger :
    ∃ x s', Run Timed.Step ⟨freshToken, 1000⟩ heldLabels x ∧
      strangersPoke.exec ⟨6, 1001000⟩ x.token = .ok ((), s') ∧
      s'.visible 2001000 7 =
        105 * 10 ^ 18 * (10 ^ 18 + 1000000 * (5 * 10 ^ 10)) / 10 ^ 18 ∧
      x.token.visible 2001000 7 ≤ s'.visible 2001000 7 + 1 := by
  obtain ⟨x, s', hrun, -, hpoke, hshown, hrate, -⟩ := held_run
  have hmove : strangersPoke.movement ⟨6, 1001000⟩ = some (7, 8, 0) := rfl
  have hnone : ∀ l ∈ ([] : List (Ctx × RebaseOp)), ¬ l.2.party l.1 7 := fun _ h => by cases h
  have hafter : Run Timed.Step ⟨s', 1001000⟩ [] ⟨s', 1001000⟩ := .nil _
  have hwithout : Run Timed.Step ⟨x.token, x.now⟩ [] x := .nil x
  obtain ⟨-, hpoked, -, hclose, -⟩ := poke_restarts_growth (t := 2001000) hmove (.inl rfl) hpoke
    (by decide) hafter hnone hwithout hnone
  refine ⟨x, s', hrun, hpoke, ?_, hclose⟩
  have hkept : strangersPoke.rateAfter ⟨6, 1001000⟩ x.token 7 = 5 * 10 ^ 10 := hrate
  rw [hpoked, hshown, hkept]
  rfl

/-- Account `7` of a token that was just deployed has `10 ^ 20`. What it has
2000000 seconds later depends on whether a stranger poked it at half time. -/
theorem poke_changes_balance :
    ∃ x s', Run Timed.Step ⟨freshToken, 1000⟩ heldLabels x ∧ x.now ≤ 1001000 ∧
      strangersPoke.movement ⟨6, 1001000⟩ = some (7, 8, 0) ∧
      strangersPoke.exec ⟨6, 1001000⟩ x.token = .ok ((), s') ∧
      x.token.balanceOf 2001000 7 = .ok (110 * 10 ^ 18) ∧
      s'.balanceOf 2001000 7 = .ok (11025 * 10 ^ 16) := by
  obtain ⟨x, s', hrun, hnow, hpoke, -, -, hunpoked, hpoked⟩ := held_run
  exact ⟨x, s', hrun, hnow, rfl, hpoke, hunpoked, hpoked⟩

/-! ## What the token owes per second -/

namespace InterestLemmas

variable {c : Ctx} {op : RebaseOp} {s s' : RebaseToken} {src dst : Address} {value : Nat}

theorem liabilityPerSecond_congr {T : Nat} (hvisible : ∀ u, s'.visible T u = s.visible T u)
    (hrate : ∀ u, s'.intrestRateToUser u = s.intrestRateToUser u) :
    s'.liabilityPerSecond T = s.liabilityPerSecond T := by
  unfold liabilityPerSecond
  exact Finset.sum_congr rfl fun u _ => by rw [hvisible u, hrate u]

/-- A transfer to oneself changes no balance and no rate. -/
theorem self_transfer_liability (hmove : op.movement c = some (src, src, value))
    (h : op.exec c s = .ok ((), s')) :
    s'.liabilityPerSecond c.timestamp = s.liabilityPerSecond c.timestamp := by
  refine liabilityPerSecond_congr (fun u => ?_) fun u => ?_
  · exact Nat.add_right_cancel ((movement_exact hmove h).visible_eq u)
  · rw [(movement_written hmove h).rate_eq]
    unfold inherited
    split_ifs with hu hzero
    · rw [hu]
    · rw [hu]
    · rfl

/-- The amount that moved earns the receiver's rate and not the payer's any more,
and what the receiver had earns the rate it has now. -/
theorem transfer_liability (hne : src ≠ dst) (hmove : op.movement c = some (src, dst, value))
    (h : op.exec c s = .ok ((), s')) :
    s'.liabilityPerSecond c.timestamp +
        (s.explicitAmount c.timestamp src value * s.intrestRateToUser src +
          s.visible c.timestamp dst * s.intrestRateToUser dst) =
      s.liabilityPerSecond c.timestamp +
        (s.visible c.timestamp dst + s.explicitAmount c.timestamp src value) *
          s.inherited src dst := by
  have hvisible := (movement_exact hmove h).visible_eq
  have hrate := (movement_written hmove h).rate_eq
  have hpayer := hvisible src
  rw [if_pos rfl, if_neg hne, Nat.add_zero] at hpayer
  have hreceiver := hvisible dst
  rw [if_neg hne.symm, if_pos rfl, Nat.add_zero] at hreceiver
  have hothers : ∀ a, a ≠ src → a ≠ dst →
      s'.visible c.timestamp a * s'.intrestRateToUser a =
        s.visible c.timestamp a * s.intrestRateToUser a := by
    intro a hsrc hdst
    have ha := hvisible a
    rw [if_neg hsrc, if_neg hdst, Nat.add_zero, Nat.add_zero] at ha
    rw [ha, hrate, if_neg hdst]
  have hsum := sum_of_eq_off hne hothers
  rw [hrate src, hrate dst, if_neg hne, if_pos rfl, hreceiver, ← hpayer] at hsum
  unfold liabilityPerSecond
  rw [Nat.add_mul] at hsum
  omega

end InterestLemmas

/-- What a transfer does to the interest liability per second. To oneself it does
nothing. To another account, the amount that moved earns the receiver's rate in
place of the payer's, where a receiver without a rate takes the payer's, also for
what it had before. So the liability does not grow exactly when the receiver's
own rate is no higher than the payer's or nothing moves, and, for a receiver
without a rate, when it has nothing the inherited rate could act on. -/
theorem transfer_liability_le_iff {c : Ctx} {op : RebaseOp} {s s' : RebaseToken}
    {src dst : Address} {value : Nat} (hmove : op.movement c = some (src, dst, value))
    (h : op.exec c s = .ok ((), s')) :
    (src = dst → s'.liabilityPerSecond c.timestamp = s.liabilityPerSecond c.timestamp) ∧
    (src ≠ dst →
      s'.liabilityPerSecond c.timestamp +
          (s.explicitAmount c.timestamp src value * s.intrestRateToUser src +
            s.visible c.timestamp dst * s.intrestRateToUser dst) =
        s.liabilityPerSecond c.timestamp +
          (s.visible c.timestamp dst + s.explicitAmount c.timestamp src value) *
            s.inherited src dst) ∧
    (s'.liabilityPerSecond c.timestamp ≤ s.liabilityPerSecond c.timestamp ↔
      src = dst ∨
      (s.intrestRateToUser dst ≠ 0 ∧ (s.explicitAmount c.timestamp src value = 0 ∨
        s.intrestRateToUser dst ≤ s.intrestRateToUser src)) ∨
      (s.intrestRateToUser dst = 0 ∧ (s.visible c.timestamp dst = 0 ∨
        s.intrestRateToUser src = 0))) := by
  refine ⟨?_, fun hne => transfer_liability hne hmove h, ?_⟩
  · rintro rfl
    exact self_transfer_liability hmove h
  by_cases hself : src = dst
  · subst hself
    exact iff_of_true (self_transfer_liability hmove h).le (.inl rfl)
  have hlaw := transfer_liability hself hmove h
  by_cases hzero : s.intrestRateToUser dst = 0
  · -- the receiver takes the payer's rate
    rw [inherited, if_pos hzero, hzero, Nat.mul_zero, Nat.add_zero, Nat.add_mul] at hlaw
    have hgrowth : s'.liabilityPerSecond c.timestamp = s.liabilityPerSecond c.timestamp +
        s.visible c.timestamp dst * s.intrestRateToUser src := by omega
    rw [hgrowth, ← Nat.mul_eq_zero]
    simp only [hself, hzero, false_or, true_and, ne_eq, not_true_eq_false, false_and]
    omega
  · rw [inherited, if_neg hzero, Nat.add_mul] at hlaw
    have hgrowth : s'.liabilityPerSecond c.timestamp +
        s.explicitAmount c.timestamp src value * s.intrestRateToUser src =
          s.liabilityPerSecond c.timestamp +
            s.explicitAmount c.timestamp src value * s.intrestRateToUser dst := by omega
    have hle : s'.liabilityPerSecond c.timestamp ≤ s.liabilityPerSecond c.timestamp ↔
        s.explicitAmount c.timestamp src value * s.intrestRateToUser dst ≤
          s.explicitAmount c.timestamp src value * s.intrestRateToUser src := by omega
    rw [hle]
    simp only [hself, hzero, false_or, or_false, true_and, ne_eq, not_false_eq_true, false_and]
    rcases Nat.eq_zero_or_pos (s.explicitAmount c.timestamp src value) with hnothing | hmoved
    · rw [hnothing, Nat.zero_mul, Nat.zero_mul]
      exact iff_of_true (Nat.le_refl _) (.inl rfl)
    · rw [Nat.mul_le_mul_left_iff hmoved]
      exact ⟨.inr, fun hcase => hcase.resolve_left hmoved.ne'⟩

/-- Account `7` got its tokens before the rate was cut to a fifth, account `8`
after it. -/
def twoRatesLabels : List (Ctx × RebaseOp) :=
  [(⟨9, 1000⟩, .grantMintAndBurnRole 1), (⟨1, 1000⟩, .mint 7 (10 ^ 20)),
    (⟨9, 1000⟩, .setIntrestRate (10 ^ 10)), (⟨1, 1000⟩, .mint 8 (10 ^ 20))]

theorem twoRates_run : ∃ x up down, Run Timed.Step ⟨freshToken, 1000⟩ twoRatesLabels x ∧
    (RebaseOp.transfer 7 (10 ^ 20)).exec ⟨8, 1000⟩ x.token = .ok ((), up) ∧
    (RebaseOp.transfer 8 (10 ^ 20)).exec ⟨7, 1000⟩ x.token = .ok ((), down) ∧
    x.token.intrestRateToUser 7 = 5 * 10 ^ 10 ∧ x.token.intrestRateToUser 8 = 10 ^ 10 ∧
    x.token.visible 1000 7 = 10 ^ 20 ∧ x.token.visible 1000 8 = 10 ^ 20 :=
  ⟨_, _, _, Run.of_foldlM (fun _ _ _ h => h) (Option.some_get (by decide +kernel)).symm,
    Tx.ok_after (by decide +kernel), Tx.ok_after (by decide +kernel), by decide +kernel,
    by decide +kernel, by decide +kernel, by decide +kernel⟩

/-- From the higher rate to the lower one the liability does not grow. -/
theorem transfer_liability_le_down :
    ∃ x down, Run Timed.Step ⟨freshToken, 1000⟩ twoRatesLabels x ∧
      (RebaseOp.transfer 8 (10 ^ 20)).exec ⟨7, 1000⟩ x.token = .ok ((), down) ∧
      down.liabilityPerSecond 1000 ≤ x.token.liabilityPerSecond 1000 := by
  obtain ⟨x, _, down, hrun, -, hdown, h7, h8, -⟩ := twoRates_run
  have hmove : (RebaseOp.transfer 8 (10 ^ 20)).movement ⟨7, 1000⟩ = some (7, 8, 10 ^ 20) := rfl
  refine ⟨x, down, hrun, hdown, (transfer_liability_le_iff hmove hdown).2.2.mpr (.inr (.inl ?_))⟩
  rw [h7, h8]
  exact ⟨by decide, .inr (by decide)⟩

/-- Tokens minted after the rate was cut are sent to an account with the old
rate, and from then on they earn the old rate. -/
theorem transfer_raises_liability :
    ∃ x up, Run Timed.Step ⟨freshToken, 1000⟩ twoRatesLabels x ∧
      (RebaseOp.transfer 7 (10 ^ 20)).exec ⟨8, 1000⟩ x.token = .ok ((), up) ∧
      up.liabilityPerSecond 1000 = x.token.liabilityPerSecond 1000 + 10 ^ 20 * (4 * 10 ^ 10) := by
  obtain ⟨x, up, _, hrun, hup, -, h7, h8, hheld, -⟩ := twoRates_run
  have hmove : (RebaseOp.transfer 7 (10 ^ 20)).movement ⟨8, 1000⟩ = some (8, 7, 10 ^ 20) := rfl
  have hlaw := transfer_liability (by decide) hmove hup
  have hamount : x.token.explicitAmount 1000 8 (10 ^ 20) = 10 ^ 20 := if_neg (by decide)
  have hrate : x.token.inherited 8 7 = 5 * 10 ^ 10 := by
    rw [inherited, if_neg (by rw [h7]; decide), h7]
  refine ⟨x, up, hrun, hup, ?_⟩
  rw [hamount, hrate, h7, h8, hheld] at hlaw
  simp only at hlaw ⊢
  omega

end AdvFoundry.Rebase
