import Mathlib.Data.Nat.Cast.Order.Field
import AdvFoundry.Evm.Recorder
import AdvFoundry.Interest.Discount
import AdvFoundry.Rebase.Rates
import AdvFoundry.Rebase.Solvency

/-!
# What interest can cost the vault

Anyone can settle accounts as often as they like, and each settlement makes the
interest so far earn interest. `interest_bounded` says what this can add up to:
discounted at the top rate of the token, all that was ever paid out and all that
is owed is worth no more than what was deposited. So after any history the vault
needs at most the interest of continuous compounding at that rate.

The record of a run has the deposits and the payments with their times. The
measure of what is owed is not the visible balances, which are rounded down, but
the exact linear growth of every principal (`owed`): calls do not raise it by
more than their explicit amount, whatever they settle.
-/

namespace AdvFoundry.Rebase

open Function Interest

/-- `5 * 10 ^ 10` of `10 ^ 18` in a second, the first and highest global rate. -/
noncomputable def topRate : ℝ := (5 * 10 ^ 10 : ℕ) / (PRECISION_FACTOR : ℕ)

/-- What a principal with its interest comes to, before rounding. -/
noncomputable def RebaseToken.owedTo (s : RebaseToken) (timestamp : Nat) (user : Address) : ℝ :=
  s.erc20.balances user * (1 + (s.intrestRateToUser user : ℝ) / (PRECISION_FACTOR : ℕ) *
    ((timestamp - s.lastUpdatedTimeStampToUser user : ℕ) : ℝ))

/-- All of them together. Irreducible, as the visible balances are. -/
@[irreducible] noncomputable def RebaseToken.owed (s : RebaseToken) (timestamp : Nat) : ℝ :=
  ∑ u, s.owedTo timestamp u

/-- The deposits and payments of a run, with their times. -/
structure Statement where
  deposits : List Flow
  payments : List Flow

/-- A deposit is on record when it returns, a payment when it is made. -/
def statement (this : Address) : Recorder (Msg this) World Payment Statement where
  onQuery _ _ payment handed log :=
    { log with payments := log.payments ++ [⟨handed.timestamp, payment.amount⟩] }
  onReturn m _ final log :=
    match m.call with
    | .deposit value => { log with deposits := log.deposits ++ [⟨final.timestamp, value⟩] }
    | _ => log

/-- The record is complete, no rate is above the top rate, and what was paid and
is owed is worth at most what was deposited: at time zero, and in total since
`t₀`. -/
structure Valued (this : Address) (t₀ : Nat) (p : World × Statement) : Prop where
  books : Books this p.1
  global_le : p.1.token.intrestRate ≤ 5 * 10 ^ 10
  rates_le : ∀ u, p.1.token.intrestRateToUser u ≤ 5 * 10 ^ 10
  deposits_eq : total p.2.deposits = p.1.deposited
  payments_eq : total p.2.payments = p.1.paid
  value_le : presentValue topRate p.2.payments +
    worth topRate p.1.timestamp (p.1.token.owed p.1.timestamp) ≤
      presentValue topRate p.2.deposits
  since : t₀ ≤ p.1.timestamp
  nominal_le : p.1.token.owed p.1.timestamp + p.1.paid ≤
    p.1.deposited * Real.exp (topRate * (p.1.timestamp - t₀))

namespace PresentValueLemmas

open AccountingLemmas RateLemmas SolvencyLemmas

variable {this : Address} {w w' : World} {s s' : RebaseToken} {c : Ctx} {op : RebaseOp} {T t₀ : Nat}
  {user : Address}

/-! ## What is owed -/

/-- The visible balance is what is owed, rounded down. -/
theorem visible_le_owedTo : (s.visible T user : ℝ) ≤ s.owedTo T user := by
  have hpos : ((PRECISION_FACTOR : ℕ) : ℝ) ≠ 0 := by norm_num [PRECISION_FACTOR]
  refine (Nat.cast_div_le (α := ℝ)).trans (le_of_eq ?_)
  rw [RebaseToken.owedTo]
  push_cast
  field_simp

/-- An account settled now is owed its principal. -/
theorem owedTo_of_settled (h : s.lastUpdatedTimeStampToUser user = T) :
    s.owedTo T user = s.visible T user := by
  rw [visible_of_settled h, RebaseToken.owedTo, h, Nat.sub_self, Nat.cast_zero, mul_zero, add_zero,
    mul_one]

/-- A call changes what an account is owed by its explicit amount; settling only
loses the fraction. -/
theorem owedTo_exec (h : op.exec c s = .ok ((), s')) (user : Address) :
    s'.owedTo c.timestamp user + op.paidOut c s user ≤
      s.owedTo c.timestamp user + op.paidIn c s user := by
  have hexact := exact_exec h
  have hwritten := exec_written h
  by_cases hparty : op.party c user
  · have hvisible : (s'.visible c.timestamp user : ℝ) + op.paidOut c s user =
        s.visible c.timestamp user + op.paidIn c s user := by
      exact_mod_cast hexact.visible_eq user
    rw [owedTo_of_settled (hwritten.parties user hparty).2, hvisible]
    exact add_le_add_left visible_le_owedTo _
  · obtain ⟨hbal, hlast⟩ := hwritten.others user hparty
    have hrate : s'.intrestRateToUser user = s.intrestRateToUser user :=
      (hwritten.rate_eq user).trans (rateAfter_of_not_party hparty)
    have hsame : op.paidOut c s user = op.paidIn c s user := by
      have hvisible := hexact.visible_eq user
      rw [visible_congr hbal hrate hlast] at hvisible
      exact Nat.add_left_cancel hvisible
    have howed : s'.owedTo c.timestamp user = s.owedTo c.timestamp user := by
      rw [RebaseToken.owedTo, RebaseToken.owedTo, hbal, hlast, hrate]
    rw [howed, hsame]

theorem owed_exec (h : op.exec c s = .ok ((), s')) :
    s'.owed c.timestamp + (∑ u, op.paidOut c s u : ℕ) ≤
      s.owed c.timestamp + (∑ u, op.paidIn c s u : ℕ) := by
  unfold RebaseToken.owed
  rw [Nat.cast_sum, Nat.cast_sum, ← Finset.sum_add_distrib, ← Finset.sum_add_distrib]
  exact Finset.sum_le_sum fun u _ => owedTo_exec h u

theorem liabilities_le_owed : (w.liabilities : ℝ) ≤ w.token.owed w.timestamp := by
  unfold World.liabilities RebaseToken.owed
  rw [Nat.cast_sum]
  exact Finset.sum_le_sum fun u _ => visible_le_owedTo

/-- While time passes what is owed grows no faster than at the top rate. -/
theorem owed_wait (hrates : ∀ u, s.intrestRateToUser u ≤ 5 * 10 ^ 10) (seconds : Nat) :
    s.owed (T + seconds) ≤ s.owed T * Real.exp (topRate * seconds) := by
  unfold RebaseToken.owed
  rw [Finset.sum_mul]
  refine Finset.sum_le_sum fun u _ => ?_
  have hpos : (0 : ℝ) < (PRECISION_FACTOR : ℕ) := by norm_num [PRECISION_FACTOR]
  have hrate : (s.intrestRateToUser u : ℝ) / (PRECISION_FACTOR : ℕ) ≤ topRate :=
    div_le_div_of_nonneg_right (Nat.cast_le.mpr (hrates u)) hpos.le
  have helapsed : ((T + seconds - s.lastUpdatedTimeStampToUser u : ℕ) : ℝ) ≤
      ((T - s.lastUpdatedTimeStampToUser u : ℕ) : ℝ) + seconds := by
    exact_mod_cast (show T + seconds - s.lastUpdatedTimeStampToUser u ≤
      T - s.lastUpdatedTimeStampToUser u + seconds by omega)
  refine le_trans ?_ (accrued_le (Nat.cast_nonneg _) (by positivity) hrate (Nat.cast_nonneg _))
  unfold RebaseToken.owedTo
  gcongr

/-- No call raises the top of the rates. -/
theorem rates_exec (h : op.exec c s = .ok ((), s')) (hglobal : s.intrestRate ≤ 5 * 10 ^ 10)
    (hrates : ∀ u, s.intrestRateToUser u ≤ 5 * 10 ^ 10) :
    s'.intrestRate ≤ 5 * 10 ^ 10 ∧ ∀ u, s'.intrestRateToUser u ≤ 5 * 10 ^ 10 := by
  have hwritten := exec_written h
  refine ⟨Nat.le_trans hwritten.global_le hglobal, fun u => ?_⟩
  rw [hwritten.rate_eq]
  rcases rateAfter_cases c op s u with hrate | ⟨owner, hrate⟩
  · rw [hrate]
    exact hglobal
  · rw [hrate]
    exact hrates owner

/-! ## The record -/

theorem topRate_nonneg : 0 ≤ topRate := by
  unfold topRate
  positivity

/-- `log'` is `log` with a deposit of `paidIn` and a payment of `paidOut` at `T`. -/
structure Flows (T paidIn paidOut : Nat) (log log' : Statement) : Prop where
  deposits_total : total log'.deposits = total log.deposits + paidIn
  payments_total : total log'.payments = total log.payments + paidOut
  deposits_value : presentValue topRate log'.deposits =
    presentValue topRate log.deposits + worth topRate T paidIn
  payments_value : presentValue topRate log'.payments =
    presentValue topRate log.payments + worth topRate T paidOut

variable {log : Statement} {paidIn paidOut : Nat}

theorem worth_zero : worth topRate T ((0 : ℕ) : ℝ) = 0 := by
  rw [worth, Nat.cast_zero, zero_mul]

theorem flows_none : Flows T 0 0 log log := by
  refine ⟨rfl, rfl, ?_, ?_⟩ <;> rw [worth_zero, add_zero]

theorem flows_deposit :
    Flows T paidIn 0 log { log with deposits := log.deposits ++ [⟨T, paidIn⟩] } := by
  refine ⟨total_append, rfl, presentValue_append, ?_⟩
  rw [worth_zero, add_zero]

theorem flows_payment :
    Flows T 0 paidOut log { log with payments := log.payments ++ [⟨T, paidOut⟩] } := by
  refine ⟨rfl, total_append, ?_, presentValue_append⟩
  rw [worth_zero, add_zero]

/-- A call takes what it pays off what is owed, and adds what is deposited. -/
theorem valued_flow {log' : Statement} (hp : Valued this t₀ (w, log)) (hbooks : Books this w')
    (htime : w'.timestamp = w.timestamp)
    (hrates : w'.token.intrestRate ≤ 5 * 10 ^ 10 ∧ ∀ u, w'.token.intrestRateToUser u ≤ 5 * 10 ^ 10)
    (hdeposited : w'.deposited = w.deposited + paidIn) (hpaid : w'.paid = w.paid + paidOut)
    (howed : w'.token.owed w.timestamp + paidOut ≤ w.token.owed w.timestamp + paidIn)
    (hflows : Flows w.timestamp paidIn paidOut log log') : Valued this t₀ (w', log') where
  books := hbooks
  global_le := hrates.1
  rates_le := hrates.2
  deposits_eq := by rw [hflows.deposits_total, hp.deposits_eq, hdeposited]
  payments_eq := by rw [hflows.payments_total, hp.payments_eq, hpaid]
  value_le := by
    have hworth := worth_mono (r := topRate) (t := w.timestamp) howed
    rw [worth_add, worth_add] at hworth
    have hvalue := hp.value_le
    rw [hflows.deposits_value, hflows.payments_value, htime]
    simp only at hvalue ⊢
    linarith
  since := htime ▸ hp.since
  nominal_le := by
    have hnominal := hp.nominal_le
    have hsince : (t₀ : ℝ) ≤ w.timestamp := Nat.cast_le.mpr hp.since
    have hgrowth : 1 ≤ Real.exp (topRate * (w.timestamp - t₀)) :=
      Real.one_le_exp (mul_nonneg topRate_nonneg (sub_nonneg.mpr hsince))
    have hin : (paidIn : ℝ) ≤ paidIn * Real.exp (topRate * (w.timestamp - t₀)) :=
      le_mul_of_one_le_right (Nat.cast_nonneg _) hgrowth
    rw [htime, hdeposited, hpaid]
    push_cast
    rw [add_mul]
    simp only at hnominal ⊢
    linarith

/-- What is owed and what was deposited grow, the one no faster than the other. -/
theorem valued_wait {seconds : Nat} (hp : Valued this t₀ (w, log)) (hbooks : Books this w')
    (htoken : w'.token = w.token) (htime : w'.timestamp = w.timestamp + seconds)
    (hdeposited : w'.deposited = w.deposited) (hpaid : w'.paid = w.paid) :
    Valued this t₀ (w', log) := by
  have hgrown := owed_wait (T := w.timestamp) hp.rates_le seconds
  simp only at hgrown
  refine ⟨hbooks, htoken ▸ hp.global_le, htoken ▸ hp.rates_le, hp.deposits_eq.trans hdeposited.symm,
    hp.payments_eq.trans hpaid.symm, ?_, ?_, ?_⟩
  · have hworth := worth_le_of_grown (t := w.timestamp) hgrown
    have hvalue := hp.value_le
    rw [htoken, htime]
    simp only at hvalue ⊢
    linarith
  · exact htime ▸ Nat.le_add_right_of_le hp.since
  · have hnominal := hp.nominal_le
    have hfactor : (1 : ℝ) ≤ Real.exp (topRate * seconds) :=
      Real.one_le_exp (mul_nonneg topRate_nonneg (Nat.cast_nonneg _))
    have hpaid_le : (w.paid : ℝ) ≤ w.paid * Real.exp (topRate * seconds) :=
      le_mul_of_one_le_right (Nat.cast_nonneg _) hfactor
    have hscaled := mul_le_mul_of_nonneg_right hnominal (Real.exp_nonneg (topRate * seconds))
    have hexp : Real.exp (topRate * (w.timestamp - t₀)) * Real.exp (topRate * seconds) =
        Real.exp (topRate * (((w.timestamp + seconds : ℕ) : ℝ) - t₀)) := by
      rw [← Real.exp_add]
      congr 1
      push_cast
      ring
    rw [htoken, htime, hdeposited, hpaid, ← hexp, ← mul_assoc]
    rw [add_mul] at hscaled
    simp only at hscaled ⊢
    linarith

/-! ## Every call -/

/-- A call that keeps control. -/
theorem valued_tx {x : VaultTx Unit} {m : Msg this} {start : World}
    (hkeeps : Keeps this ((Proc.tx x : VaultProc Unit) w))
    (hok : ∀ w', x w = .ok ((), w') → Books this w' →
      Valued this t₀ (w', (statement this).onReturn m start w' log)) :
    (((Proc.tx x : VaultProc Unit) w).recorded (statement this) m start log).Safe
      (Valued this t₀) (fun _ => True) (fun _ => True) fun _ => Valued this t₀ := by
  refine Outcome.safe_recorded_tx (fun w' h => hok w' h ?_) fun _ => trivial
  simpa only [Keeps, Proc.tx, h, Outcome.Safe] using hkeeps

theorem valued_deposit {m : Msg this} {value : Nat} (hm : m.call = .deposit value)
    (hp : Valued this t₀ (w, log)) :
    (((Proc.tx (deposit this m.sender value) : VaultProc Unit) w).recorded (statement this) m w
      log).Safe (Valued this t₀) (fun _ => True) (fun _ => True) fun _ => Valued this t₀ := by
  refine valued_tx (keeps_deposit hp.books) fun w' h hbooks => ?_
  simp only [deposit, Tx.bind_ok, Tx.modify_ok, Tx.revertIf_ok, Tx.get_ok, callToken_ok] at h
  obtain ⟨_, _, rfl, _, _, ⟨-, rfl⟩, _, _, ⟨rfl, rfl⟩, s', hmint, rfl⟩ := h
  have hexec : (RebaseOp.mint m.sender value).exec ⟨this, w.timestamp⟩ w.token = .ok ((), s') := hmint
  have howed := owed_exec hexec
  simp only [RebaseOp.paidOut, RebaseOp.paidIn, sum_at, Finset.sum_const_zero] at howed
  have hrecord (final : World) : (statement this).onReturn m w final log =
      { log with deposits := log.deposits ++ [⟨final.timestamp, value⟩] } := by
    simp only [statement, hm]
  rw [hrecord]
  exact valued_flow hp hbooks rfl (rates_exec hexec hp.global_le hp.rates_le) rfl rfl howed
    flows_deposit

theorem valued_reedem {m : Msg this} (hm : m.call = .reedem) (hp : Valued this t₀ (w, log)) :
    ((reedem this m.sender w).recorded (statement this) m w log).Safe (Valued this t₀)
      (fun _ => True) (fun _ => True) fun _ => Valued this t₀ := by
  rcases reedem_cases this m.sender w with ⟨e, hreverted, -⟩ | ⟨s', hburn, hfunds, hwaiting⟩
  · rw [hreverted]
    trivial
  · rw [hwaiting]
    refine ⟨?_, fun a p _ hp' => ?_⟩
    · have hexec : (RebaseOp.burn m.sender (w.token.visible w.timestamp m.sender)).exec
          ⟨this, w.timestamp⟩ w.token = .ok ((), s') := hburn
      have howed := owed_exec hexec
      simp only [RebaseOp.paidOut, RebaseOp.paidIn, sum_at, RebaseToken.explicitAmount, ite_self,
        Finset.sum_const_zero] at howed
      exact valued_flow hp
        (books_paid hp.books (preserves_minters_burn _ _ _ hburn) (burn_visible hburn) hfunds) rfl
        (rates_exec hexec hp.global_le hp.rates_le) rfl rfl howed flows_payment
    · cases a with
      | some u =>
        have hrecord : (statement this).onReturn m w p.1 p.2 = p.2 := by simp only [statement, hm]
        show Valued this t₀ (p.1, (statement this).onReturn m w p.1 p.2)
        rw [hrecord]
        exact hp'
      | none => trivial

theorem valued_exec (m : Msg this) (p : World × Statement) (hp : Valued this t₀ p) :
    (Machine.recordedExec Msg.exec (statement this) m p).Safe (Valued this t₀) (fun _ => True)
      (fun _ => True) fun _ => Valued this t₀ := by
  obtain ⟨w, log⟩ := p
  have hkeeps := keeps_exec m hp.books
  rcases m with ⟨sender, hsender, call⟩
  cases call with
  | deposit value => exact valued_deposit (m := ⟨sender, hsender, .deposit value⟩) rfl hp
  | reedem => exact valued_reedem (m := ⟨sender, hsender, .reedem⟩) rfl hp
  | receive value =>
    refine valued_tx (x := Rebase.receive value) hkeeps fun w' h hbooks => ?_
    cases Tx.modify_ok.mp h
    exact valued_flow hp hbooks rfl ⟨hp.global_le, hp.rates_le⟩ rfl rfl (le_refl _) flows_none
  | token op hgrant =>
    refine valued_tx hkeeps fun w' h hbooks => ?_
    simp only [userCall, Tx.bind_ok, Tx.get_ok, callToken_ok] at h
    obtain ⟨_, _, ⟨rfl, rfl⟩, s', hop, rfl⟩ := h
    have howed := owed_exec hop
    rw [userCall_even hp.books hsender hop] at howed
    refine valued_flow hp hbooks rfl (rates_exec hop hp.global_le hp.rates_le) rfl rfl ?_ flows_none
    exact add_le_add_left (le_of_add_le_add_right howed) _
  | wait seconds =>
    refine valued_tx (x := Rebase.wait seconds) hkeeps fun w' h hbooks => ?_
    cases Tx.modify_ok.mp h
    exact valued_wait hp hbooks rfl rfl rfl rfl

/-- Nothing was deposited yet, and nothing is owed. -/
theorem Deployed.valued (h : Deployed this w) : Valued this w.timestamp (w, ⟨[], []⟩) := by
  have hbooks := h.books
  obtain ⟨_, _, hbuilt, hgrant⟩ := h.built
  simp only [constructor, Result.bind_ok, Result.pure_ok] at hbuilt
  obtain ⟨_, -, rfl⟩ := hbuilt
  obtain ⟨_, _, howner, hmodify⟩ := Tx.bind_ok.mp hgrant
  have htoken := Tx.modify_ok.mp hmodify
  rw [(onlyOwner_ok.mp howner).2] at htoken
  have howed : w.token.owed w.timestamp = 0 := by
    unfold RebaseToken.owed
    refine Finset.sum_eq_zero fun u _ => ?_
    rw [htoken]
    simp [RebaseToken.owedTo, ERC20.empty]
  refine ⟨hbooks, ?_, fun u => ?_, h.no_deposit.symm, h.no_payment.symm, ?_, Nat.le_refl _, ?_⟩
  · rw [htoken]
  · rw [htoken]
    exact Nat.zero_le _
  · simp only [howed, worth, zero_mul, presentValue, List.map_nil, List.sum_nil, add_zero]
    exact le_refl _
  · simp only [howed, h.no_payment, h.no_deposit, Nat.cast_zero, zero_mul, add_zero]
    exact le_refl _

end PresentValueLemmas

open PresentValueLemmas SolvencyLemmas

/-! ## Every run -/

/-- In every state of every run in which the vault stays the only minter, however
often and by whomever accounts are settled, and however deep redemptions are nested:
at the top rate, the payments made and the visible balances are worth at most the
deposits. The interest that
accrued is at most that of continuous compounding of all deposits since the
start. -/
theorem interest_bounded {this : Address} {w₀ : World} {m : VaultMachine}
    {events : List (Event (Msg this) Unit)} (h₀ : Deployed this w₀)
    (hrun : Run (Step this) ⟨w₀, []⟩ events m) :
    (∃ log stack,
      Run (Machine.Step (Machine.recordedExec Msg.exec (statement this))) ⟨(w₀, ⟨[], []⟩), []⟩ events
        ⟨(m.world, log), stack⟩ ∧
      total log.deposits = m.world.deposited ∧ total log.payments = m.world.paid ∧
      presentValue topRate log.payments + worth topRate m.world.timestamp m.world.liabilities ≤
        presentValue topRate log.deposits) ∧
    (m.world.accrued : ℝ) ≤
      m.world.deposited * (Real.exp (topRate * (m.world.timestamp - w₀.timestamp)) - 1) := by
  have hstart : Machine.Records (statement this) (⟨w₀, []⟩ : VaultMachine) ⟨(w₀, ⟨[], []⟩), []⟩ :=
    ⟨rfl, .nil⟩
  obtain ⟨⟨⟨world, log⟩, stack⟩, hrecorded, hrecords⟩ := Machine.recorded_run hrun hstart
  have hworld : world = m.world := hrecords.world
  subst hworld
  have hvalued : Valued this w₀.timestamp (m.world, log) :=
    (Machine.sound_run valued_exec hrecorded (fun ev _ => by cases ev <;> trivial)
      (Machine.sound_idle (Deployed.valued h₀))).world
  refine ⟨⟨log, stack, hrecorded, hvalued.deposits_eq, hvalued.payments_eq, ?_⟩, ?_⟩
  · have hworth := worth_mono (r := topRate) (t := m.world.timestamp)
      (liabilities_le_owed (w := m.world))
    have hvalue := hvalued.value_le
    simp only at hvalue
    linarith
  · have howed : (m.world.liabilities : ℝ) + m.world.paid = m.world.deposited + m.world.accrued := by
      exact_mod_cast hvalued.books.owed
    have hvisible := liabilities_le_owed (w := m.world)
    have hnominal := hvalued.nominal_le
    simp only at hnominal
    rw [mul_sub, mul_one]
    linarith

/-- After the hour of `hourEvents`. -/
theorem interest_bounded_hour :
    ∃ m, Run (Step 1) ⟨sampleWorld 0, []⟩ hourEvents m ∧ m.world.deposited = 10 ^ 18 ∧
      m.world.timestamp = 4600 ∧
      (m.world.accrued : ℝ) ≤ m.world.deposited *
        (Real.exp (topRate * (m.world.timestamp - (sampleWorld 0).timestamp)) - 1) := by
  have hrun : Run (Step 1) ⟨sampleWorld 0, []⟩ hourEvents _ :=
    Run.of_foldlM (fun _ _ _ h => h) (Option.some_get (by decide +kernel)).symm
  exact ⟨_, hrun, by decide +kernel, by decide +kernel,
    (interest_bounded (sampleWorld_deployed 0) hrun).2⟩

end AdvFoundry.Rebase
