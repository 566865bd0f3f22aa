import AdvFoundry.Dsc.System

/-!
# The engine holds what it records

For every token, the engine's balance is the collateral recorded for all users
together plus whatever was sent to the engine directly (`custody_run`). The
engine never approves anyone, so only its own functions move tokens out, and
each of them changes the record by the same amount.

`no_shortfall`: from a reachable world no engine call reverts because the engine
lacks tokens.
-/

namespace AdvFoundry.Dsc

open Function

/-- The amount of `t` a call sends to the engine without depositing it. -/
def Call.sentTo (this dsc t : Address) : Call → Nat
  | engine _ => 0
  | token t' op => if t' = t then op.sentTo this else 0
  | coin (.mint r a) => if dsc = t ∧ r = this then a else 0
  | coin _ => 0
  | issue t' a v => if t' = t ∧ a = this then v else 0
  | retire _ _ => 0

/-- The engine's balance of `t` is what it records and `n` more. -/
structure Custody (this dsc t : Address) (w : World) (n : Nat) : Prop where
  dsc_eq : w.engine.dsc = dsc
  no_approval : ∀ t, (w.tokens t).NoApproval this
  backed : (w.tokens t).balances this = ∑ u, w.engine.collateralToUser u t + n

namespace CustodyLemmas

variable {c : Ctx} {w w' w₀ : World} {this dsc t token : Address} {n : Nat}

/-- A call into one token, seen at the balance of another. -/
theorem balances_setToken {tk : ERC20} (htokens : w₀.tokens = w.tokens) :
    ((w₀.setToken token tk).tokens t).balances this =
      if t = token then tk.balances this else (w.tokens t).balances this := by
  by_cases ht : t = token
  · subst ht
    simp
  · simp [ht, htokens]

/-- Every move of an engine call keeps custody. -/
theorem custody_move (h : Move c w w') (hw : Custody c.this dsc t w n) :
    Custody c.this dsc t w' n := by
  have hne := c.sender_ne
  have hbacked := hw.backed
  cases h with
  | @deposit token amount hfunds _ =>
    have hsum := sum_update_row w.engine.collateralToUser c.sender token t
      (w.engine.collateralToUser c.sender token + amount)
    refine ⟨hw.dsc_eq, ERC20.noApproval_update hw.no_approval ?_, ?_⟩
    · exact ERC20.spend_noApproval (hw.no_approval token)
    · rw [depositedWorld, balances_setToken rfl]
      simp only [World.setToken_engine, World.setCollateral_engine]
      by_cases ht : t = token
      · subst ht
        simp [debit_of_ne hne.symm] at hsum ⊢
        omega
      · simp [ht] at hsum ⊢
        omega
  | @mint amount hsupply _ =>
    refine ⟨hw.dsc_eq, ERC20.noApproval_update hw.no_approval ?_, ?_⟩
    · exact hw.no_approval w.engine.dsc
    · rw [mintedWorld, balances_setToken rfl]
      by_cases ht : t = w.engine.dsc
      · subst ht
        simpa [credit_of_ne hne.symm] using hbacked
      · simpa [ht] using hbacked
  | @burn debtor amount hfunds _ =>
    refine ⟨hw.dsc_eq, ERC20.noApproval_update hw.no_approval ?_, ?_⟩
    · exact ERC20.spend_noApproval (hw.no_approval w.engine.dsc)
    · rw [burnedWorld, balances_setToken rfl]
      by_cases ht : t = w.engine.dsc
      · subst ht
        simpa [debit_of_ne hne.symm] using hbacked
      · simpa [ht] using hbacked
  | @reedem src token amount hheld hrec =>
    have hsum := sum_update_row w.engine.collateralToUser src token t
      (w.engine.collateralToUser src token - amount)
    refine ⟨hw.dsc_eq, ERC20.noApproval_update hw.no_approval ?_, ?_⟩
    · exact hw.no_approval token
    · rw [reedemedWorld, balances_setToken rfl]
      simp only [World.setToken_engine, World.setCollateral_engine]
      by_cases ht : t = token
      · subst ht
        simp [credit_of_ne hne.symm] at hsum ⊢
        omega
      · simp [ht] at hsum ⊢
        omega

/-- A call into one token that neither touches the engine's storage nor takes
from the engine keeps custody, up to what it sends. -/
theorem custody_setToken (token : Address) (tk : ERC20) (sent : Nat) (hw : Custody this dsc t w n)
    (hbal : tk.balances this = (w.tokens token).balances this + sent)
    (hno : tk.NoApproval this) :
    Custody this dsc t (w.setToken token tk) (n + if token = t then sent else 0) := by
  refine ⟨hw.dsc_eq, ERC20.noApproval_update hw.no_approval hno, ?_⟩
  rw [balances_setToken rfl]
  have hbacked := hw.backed
  by_cases ht : t = token
  · subst ht
    simp only [if_true, hbal, hbacked, World.setToken_engine]
    omega
  · have ht' : token ≠ t := fun he => ht he.symm
    simpa [ht, ht'] using hbacked

end CustodyLemmas

open CustodyLemmas

/-- One transaction keeps custody, up to what it sends to the engine. -/
theorem custody_step {this dsc t : Address} {w w' : World} {m : Msg} {n : Nat}
    (h : Step this w m w') (hw : Custody this dsc t w n) :
    Custody this dsc t w' (n + m.call.sentTo this dsc t) := by
  obtain ⟨hne, h⟩ := h
  rcases m with ⟨sender, env, call⟩
  cases call with
  | engine op =>
    exact engine_invariant (I := fun w => Custody this dsc t w n)
      (fun w w' hmove hcust => custody_move hmove hcust) h hw
  | token t' op =>
    obtain ⟨tk, htk, rfl⟩ := callToken_ok.mp h
    obtain ⟨hbal, hno⟩ := ERC20.passive_holder htk hne (hw.no_approval t')
    exact custody_setToken t' tk _ hw hbal hno
  | coin op =>
    obtain ⟨d, hd, rfl⟩ := callCoin_ok.mp h
    have hdsc := hw.dsc_eq
    cases op with
    | mint r a =>
      simp only [CoinOp.exec, Tx.bind_ok, DecentralisedStableCoin.mint_ok, Tx.pure_ok] at hd
      obtain ⟨_, _, ⟨-, -, -, -, -, _, rfl⟩, -, rfl⟩ := hd
      rw [setCoin_erc20]
      have hcust := custody_setToken w.engine.dsc (w.coin.erc20.issue r a ‹_›)
        (if r = this then a else 0) hw (by simp [credit_apply, @eq_comm _ this]; split <;> rfl)
        (hw.no_approval w.engine.dsc)
      simpa [Call.sentTo, ← hdsc, ite_and] using hcust
    | burn a =>
      obtain ⟨-, -, -, _, rfl⟩ := DecentralisedStableCoin.burn_ok.mp hd
      rw [setCoin_erc20]
      have hcust := custody_setToken w.engine.dsc (w.coin.erc20.destroy sender a ‹_›) 0 hw
        (by simp [debit_of_ne hne.symm])
        (hw.no_approval w.engine.dsc)
      simpa [Call.sentTo] using hcust
    | transferOwnership o | renounceOwnership =>
      obtain ⟨_, -, rfl⟩ := DecentralisedStableCoin.superOwnable_ok.mp hd
      exact ⟨hw.dsc_eq, by simpa using hw.no_approval, by simpa [Call.sentTo] using hw.backed⟩
  | issue t' a v =>
    simp only [Call.exec, Tx.bind_ok, notCoin_ok, callToken_ok, ERC20._mint_ok] at h
    obtain ⟨_, w, ⟨-, rfl⟩, _, ⟨-, hv, rfl⟩, rfl⟩ := h
    have hcust := custody_setToken t' ((w.tokens t').issue a v hv)
      (if a = this then v else 0) hw (by simp [credit_apply, @eq_comm _ this]; split <;> rfl)
      (hw.no_approval t')
    simpa [Call.sentTo, ite_and] using hcust
  | retire t' v =>
    simp only [Call.exec, Tx.bind_ok, notCoin_ok, callToken_ok, ERC20.burn, ERC20._burn_ok] at h
    obtain ⟨_, w, ⟨-, rfl⟩, _, ⟨-, hv, rfl⟩, rfl⟩ := h
    have hcust := custody_setToken t' ((w.tokens t').destroy sender v hv) 0 hw
      (by simp [debit_of_ne hne.symm])
      (hw.no_approval t')
    simpa [Call.sentTo] using hcust

/-- After any run, the engine holds what it records and what was sent to it
before and during the run. -/
theorem custody_run {this t : Address} {w₀ w : World} {msgs : List Msg} (h₀ : Deployed this w₀)
    (hrun : Run (Step this) w₀ msgs w) :
    Custody this w₀.engine.dsc t w ((w₀.tokens t).balances this +
      (msgs.map fun m => m.call.sentTo this w₀.engine.dsc t).sum) := by
  obtain ⟨tokens, feeds, hbuilt⟩ := h₀.built
  obtain ⟨hcoll, -⟩ := constructor_ok hbuilt
  have hstart : Custody this w₀.engine.dsc t w₀ ((w₀.tokens t).balances this) :=
    ⟨rfl, fun t spender => h₀.no_allowance t spender, by simp [hcoll]⟩
  exact Run.accounting (I := Custody this w₀.engine.dsc t) (C := fun _ => True)
    (fun _ _ _ _ _ hI hst => custody_step hst hI) hrun (fun _ _ => trivial) hstart

/-! ## Redemptions do not fail for lack of tokens -/

namespace CustodyLemmas

variable {c : Ctx} {w w' : World} {env : Env} {e : DSCEngine} {user token : Address} {x : ERC20Error}

theorem getHealthFactor_ne_token :
    getHealthFactor env e user ≠ .error (.error (.token x)) := by
  intro h
  obtain ⟨_, -, hfeed⟩ := getHealthFactor_error h
  cases getLatestRoundData_error hfeed

theorem _checkHealthFactorAndRevert_ne_token :
    _checkHealthFactorAndRevert env e user ≠ .error (.error (.token x)) := by
  intro h
  rcases _checkHealthFactorAndRevert_error h with hx | ⟨_, -, hfeed⟩
  · cases hx
  · cases getLatestRoundData_error hfeed

theorem _convertDscToCollateral_ne_token {debt : Nat} :
    _convertDscToCollateral env e token debt ≠ .error (.error (.token x)) := by
  intro h
  cases getLatestRoundData_error (_convertDscToCollateral_error h)

/-- The revert reason of a transfer the engine cannot pay. -/
abbrev short (this : Address) (balance needed : Nat) : Revert EngineError :=
  .error (.token (.insufficientBalance this balance needed))

variable {amount b n : Nat} {src dst debtor : Address}

theorem checkValidAmount_not_short : checkValidAmount amount w ≠ .error (short c.this b n) := by
  simp [checkValidAmount, Tx.revertIf_error]

theorem guarded_short {body : EngineTx Unit} (h : guarded body w = .error (short c.this b n)) :
    body (w.setEntered true) = .error (short c.this b n) := by
  rcases nonReentrant_error h with he | hbody
  · cases he
  · exact hbody

/-- A redemption of recorded collateral is covered by what the engine holds. -/
theorem _reedemCollateral_not_short
    (hw : ∑ u, w.engine.collateralToUser u token ≤ (w.tokens token).balances c.this) :
    _reedemCollateral c src dst token amount w ≠ .error (short c.this b n) := by
  intro h
  simp only [_reedemCollateral, Tx.bind_error, Tx.tryModify_error, Tx.tryModify_ok,
    Result.bind_error, Result.subU_ne_error, Result.pure_ne_error, Result.bind_ok, subU_ok,
    Result.pure_ok, Tx.revertIf_error, callToken, Tx.call_error, and_false, exists_false, or_false,
    false_or] at h
  obtain ⟨_, _, ⟨_, ⟨hrec, rfl⟩, rfl⟩, ⟨d, hd, hinj⟩ | ⟨_, _, -, -, hinj⟩⟩ := h
  · cases hinj
    have hshort := (ERC20.transfer_short hd).2
    have hle := le_sum (fun u => w.engine.collateralToUser u token) src
    simp only [World.setCollateral_tokens] at hshort
    omega
  · cases hinj

/-- The stablecoin a burn pulls in is the caller's, and what the coin itself
refuses is a coin's error. -/
theorem _burnDSC_not_short : _burnDSC c amount debtor c.sender w ≠ .error (short c.this b n) := by
  intro h
  simp only [_burnDSC, Tx.bind_error, Tx.tryModify_error, Result.bind_error, Result.subU_ne_error,
    Result.pure_ne_error, Tx.get_ne_error, Tx.revertIf_error, callToken, callCoin, Tx.call_error,
    and_false, exists_false, or_false, false_or] at h
  obtain ⟨_, _, -, _, _, -, ⟨d, hd, hinj⟩ | ⟨_, _, -, ⟨-, hinj⟩ | ⟨_, _, -, d, -, hinj⟩⟩⟩ := h
  · cases hinj
    exact c.sender_ne (ERC20.transferFrom_short hd).symm
  · cases hinj
  · cases hinj

theorem depositCollateral_not_short :
    depositCollateral c token amount w ≠ .error (short c.this b n) := by
  intro h
  simp only [depositCollateral, Tx.bind_error, checkValidAmount_not_short, checkAllowedToken,
    Tx.view_error, Result.revertIf_error, false_or] at h
  obtain ⟨_, _, -, ⟨-, hinj⟩ | ⟨_, _, -, h⟩⟩ := h
  · cases hinj
  · have hbody := guarded_short h
    simp only [Tx.bind_error, Tx.tryModify_error, Result.bind_error, Result.addU_ne_error,
      Result.pure_ne_error, Tx.revertIf_error, callToken, Tx.call_error, and_false, exists_false,
      or_false, false_or] at hbody
    obtain ⟨_, _, -, ⟨d, hd, hinj⟩ | ⟨_, _, -, -, hinj⟩⟩ := hbody
    · cases hinj
      exact c.sender_ne (ERC20.transferFrom_short hd).symm
    · cases hinj

theorem mintDSC_not_short : mintDSC c amount w ≠ .error (short c.this b n) := by
  intro h
  simp only [mintDSC, Tx.bind_error, checkValidAmount_not_short, Tx.tryModify_error,
    Result.bind_error, Result.addU_ne_error, Result.pure_ne_error, Tx.view_error,
    _checkHealthFactorAndRevert_ne_token, Tx.revertIf_error, callCoin, Tx.call_error, and_false,
    exists_false, or_false, false_or] at h
  obtain ⟨_, _, -, _, _, -, _, _, -, ⟨d, -, hinj⟩ | ⟨_, _, -, -, hinj⟩⟩ := h <;> cases hinj

theorem burnDSC_not_short : burnDSC c amount w ≠ .error (short c.this b n) := by
  intro h
  simp only [burnDSC, Tx.bind_error, checkValidAmount_not_short, false_or] at h
  obtain ⟨_, _, -, h⟩ := h
  exact _burnDSC_not_short (guarded_short h)

theorem reedemCollateral_not_short
    (hw : ∑ u, w.engine.collateralToUser u token ≤ (w.tokens token).balances c.this) :
    reedemCollateral c token amount w ≠ .error (short c.this b n) := by
  intro h
  simp only [reedemCollateral, Tx.bind_error, checkValidAmount_not_short, checkValidAmount_ok,
    false_or] at h
  obtain ⟨_, w, ⟨-, rfl⟩, h⟩ := h
  have hbody := guarded_short h
  simp only [Tx.bind_error, Tx.view_error, _checkHealthFactorAndRevert_ne_token, and_false,
    exists_false, or_false] at hbody
  exact _reedemCollateral_not_short (w := w.setEntered true) hw hbody

end CustodyLemmas

theorem Custody.covers {this dsc t : Address} {w : World} {n : Nat} (h : Custody this dsc t w n) :
    ∑ u, w.engine.collateralToUser u t ≤ (w.tokens t).balances this := by
  rw [h.backed]
  exact Nat.le_add_right _ _

/-- From a world with custody, no engine call reverts because the engine is
short of a token. -/
theorem no_shortfall {c : Ctx} {w : World} {dsc : Address} (hw : ∀ t, ∃ n, Custody c.this dsc t w n)
    (op : EngineOp) (balance needed : Nat) :
    op.exec c w ≠ .error (.error (.token (.insufficientBalance c.this balance needed))) := by
  have hcovers : ∀ t, ∑ u, w.engine.collateralToUser u t ≤ (w.tokens t).balances c.this :=
    fun t => (hw t).elim fun _ h => h.covers
  -- a burn keeps custody, so the redemption after it is covered too
  have hburned : ∀ {w₁ debtor amount}, _burnDSC c amount debtor c.sender w = .ok ((), w₁) →
      ∀ t, ∑ u, w₁.engine.collateralToUser u t ≤ (w₁.tokens t).balances c.this :=
    fun hb t => (hw t).elim fun _ h => (custody_move (move_of_burn hb) h).covers
  intro h
  cases op with
  | depositCollateral t a => exact depositCollateral_not_short h
  | mintDSC a => exact mintDSC_not_short h
  | depositCollateralAndMintDSC t a m =>
    simp only [EngineOp.exec, depositCollateralAndMintDSC, Tx.bind_error, checkValidAmount_not_short,
      checkAllowedToken, Tx.view_error, Result.revertIf_error, depositCollateral_not_short,
      mintDSC_not_short, and_false, exists_false, or_false, false_or] at h
    obtain ⟨_, _, -, -, hinj⟩ := h
    cases hinj
  | reedemCollateral t a => exact reedemCollateral_not_short (hcovers t) h
  | reedemCollateralAndBurnDSC t a b =>
    simp only [EngineOp.exec, reedemCollateralAndBurnDSC, Tx.bind_error, checkValidAmount_not_short,
      checkValidAmount_ok, burnDSC_not_short, Tx.view_error, _checkHealthFactorAndRevert_ne_token,
      and_false, exists_false, or_false, false_or] at h
    obtain ⟨_, w, ⟨-, rfl⟩, _, w₁, hb, h⟩ := h
    exact reedemCollateral_not_short (hburned (burnDSC_ok.mp hb).2 t) h
  | burnDSC a => exact burnDSC_not_short h
  | liquidate u t d =>
    simp only [EngineOp.exec, liquidate, Tx.bind_error, checkValidAmount_not_short,
      checkValidAmount_ok, Tx.get_ne_error, Tx.get_ok, Tx.revertIf_error, Tx.revertIf_ok,
      Tx.view_error, Tx.view_ok, getHealthFactor_ne_token, _convertDscToCollateral_ne_token,
      Result.mulU_ne_error, Result.divU_ne_error, Result.addU_ne_error, _burnDSC_not_short,
      false_or, reduceCtorEq, Revert.error.injEq, and_false, existsAndEq, exists_const, and_true,
      true_and] at h
    obtain ⟨-, -, _, -, -, _, -, _, -, _, -, _, -, _, w₁, hb, h | ⟨_, _, -, _, h⟩⟩ := h
    · exact _reedemCollateral_not_short (hburned hb t) h
    · cases h

end AdvFoundry.Dsc
