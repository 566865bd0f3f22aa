import AdvFoundry.Drs.System
import AdvFoundry.Dsc.Custody
import AdvFoundry.Dsc.Positions

/-!
# StableCoinEngine holds what it records

For every standard token, accepted or not, and for the stablecoin itself: in
every state of every run, also while a token of unknown code has control, the
engine's balance is the collateral recorded for all users together plus what was
sent to it directly.
-/

namespace AdvFoundry.Drs

open Function

/-- The engine's balance of every standard token is what it records and what was
sent to it. -/
structure Custody (this : Address) (standard : Address → Bool) (w : World) : Prop where
  no_approval : ∀ t, (w.tokens t).NoApproval this
  backed : ∀ t, w.Standard standard t →
    (w.tokens t).balances this = ∑ u, w.engine.collateralToUser u t + w.sent t

/-- Not the revert reason of a transfer the engine cannot pay. -/
def NotShort (this : Address) (e : Revert EngineError) : Prop :=
  ∀ balance needed, e ≠ .error (.token (.insufficientBalance this balance needed))

/-- A call that keeps custody throughout and does not fail for lack of tokens. -/
abbrev Keeps {α : Type} (this : Address) (standard : Address → Bool)
    (o : Outcome EngineError World TokenQuery Bool α) : Prop :=
  o.Safe (Custody this standard) (fun _ => True) (NotShort this) fun _ => Custody this standard

namespace CustodyLemmas

variable {c : Ctx} {w w' w₀ : World} {this token user : Address} {standard : Address → Bool}
  {amount : Nat}

/-- A call into one standard token together with a change of its column of the
records keeps custody when the two agree. -/
theorem custody_write {tk : ERC20} {record : Nat} (hw : Custody this standard w)
    (hno : tk.NoApproval this)
    (hbal : tk.balances this + w.engine.collateralToUser user token =
      (w.tokens token).balances this + record) :
    Custody this standard ((w.setCollateral user token record).setToken token tk) := by
  refine ⟨ERC20.noApproval_update hw.no_approval hno, fun t ht => ?_⟩
  have hbacked := hw.backed t ht
  have hsum := sum_update_row w.engine.collateralToUser user token t record
  by_cases he : t = token
  · subst he
    simp only [if_true] at hsum
    simp only [World.setToken_tokens, update_self, World.setToken_engine, World.setCollateral_engine,
      World.setToken_sent, World.setCollateral_sent]
    omega
  · simp [he] at hsum ⊢
    omega

/-- The record of a token of unknown code is not part of custody. -/
theorem custody_foreign {record : Nat} (hw : Custody this standard w)
    (hfor : ¬ w.Standard standard token) :
    Custody this standard (w.setCollateral user token record) := by
  refine ⟨hw.no_approval, fun t ht => ?_⟩
  have hbacked := hw.backed t ht
  have hsum := sum_update_row w.engine.collateralToUser user token t record
  have hne : t ≠ token := by
    intro he
    subst he
    exact hfor ht
  simp [hne] at hsum ⊢
  omega

/-- A call into one token that leaves the engine's balance as it was. -/
theorem custody_setToken {tk : ERC20} (hw : Custody this standard w)
    (hbal : tk.balances this = (w.tokens token).balances this) (hno : tk.NoApproval this) :
    Custody this standard (w.setToken token tk) := by
  refine ⟨ERC20.noApproval_update hw.no_approval hno, fun t ht => ?_⟩
  have hbacked := hw.backed t ht
  by_cases he : t = token
  · subst he
    simpa [hbal] using hbacked
  · simpa [he] using hbacked

theorem custody_setMinted (hw : Custody this standard w) :
    Custody this standard (w.setMinted user amount) :=
  ⟨hw.no_approval, hw.backed⟩

theorem custody_setEntered {b : Bool} (hw : Custody this standard w) :
    Custody this standard (w.setEntered b) :=
  ⟨hw.no_approval, hw.backed⟩

/-- A call into one token, with what it sends to the engine. -/
theorem custody_sent (token : Address) (tk : ERC20) (sent : Nat) (hw : Custody this standard w)
    (hbal : tk.balances this = (w.tokens token).balances this + sent) (hno : tk.NoApproval this) :
    Custody this standard
      { w.setToken token tk with sent := credit w.sent token sent } := by
  refine ⟨ERC20.noApproval_update hw.no_approval hno, fun t ht => ?_⟩
  have hbacked := hw.backed t ht
  by_cases he : t = token
  · subst he
    simp only [World.setToken_tokens, update_self, World.setToken_engine, credit_self, hbal, hbacked]
    omega
  · simpa [he, credit_of_ne he] using hbacked

/-! ## The revert reasons of the view functions -/

section Views

variable {env : Env} {e : StableCoinEngine} {x : ERC20Error}

theorem latestPrice_ne_token : latestPrice env e token ≠ .error (.error (.token x)) := by
  intro h
  simp only [latestPrice, Result.bind_error, Result.ofOption_ne_error, Result.pure_ne_error,
    and_false, exists_false, or_self] at h

theorem total_loop_ne_token {tokens : List Address} {total : Nat} :
    tokens.foldlM (fun totalCollateralInRs token => do
      let price ← latestPrice env e token
      let unit ← mulU price REMAINING_PRECISION
      let scaled ← mulU (e.collateralToUser user token) unit
      let value ← divU scaled PRECISION
      addU totalCollateralInRs value) total ≠ .error (.error (.token x)) := by
  induction tokens generalizing total with
  | nil => exact Result.pure_ne_error
  | cons t ts ih =>
    simp only [List.foldlM_cons, Result.bind_error, Result.addU_ne_error, Result.mulU_ne_error,
      Result.divU_ne_error, latestPrice_ne_token, and_false, exists_false, or_self, false_or, ne_eq,
      not_exists, not_and]
    intro total' _
    exact ih

theorem _getHealthFactor_ne_token {minted value : Nat} :
    _getHealthFactor minted value ≠ .error (.error (.token x)) := by
  intro h
  unfold _getHealthFactor at h
  split at h
  · exact Result.pure_ne_error h
  · simp only [Result.bind_error, Result.mulU_ne_error, Result.divU_ne_error, and_false,
      exists_false, or_self] at h

theorem _getAccountInformation_ne_token :
    _getAccountInformation env e user ≠ .error (.error (.token x)) := by
  have hloop : _getCollateralInUSD env e user ≠ .error (.error (.token x)) := total_loop_ne_token
  intro h
  simp only [_getAccountInformation, Result.bind_error, hloop, Result.pure_ne_error, and_false,
    exists_false, or_self] at h

theorem getHealthFactor_ne_token : getHealthFactor env e user ≠ .error (.error (.token x)) := by
  intro h
  simp only [getHealthFactor, Result.bind_error, _getAccountInformation_ne_token, false_or] at h
  obtain ⟨⟨minted, value⟩, -, h⟩ := h
  exact _getHealthFactor_ne_token h

theorem _checkHealthFactorOrRevert_ne_token :
    _checkHealthFactorOrRevert env e user ≠ .error (.error (.token x)) := by
  intro h
  simp only [_checkHealthFactorOrRevert, Result.bind_error, _getAccountInformation_ne_token,
    false_or] at h
  obtain ⟨⟨minted, value⟩, -, h⟩ := h
  simp only [_getHealthFactor_ne_token, Result.revertIf_error, reduceCtorEq, Revert.error.injEq,
    and_false, exists_false, or_self] at h

theorem _convertDRStoCollateral_ne_token :
    _convertDRStoCollateral env e token amount ≠ .error (.error (.token x)) := by
  intro h
  simp only [_convertDRStoCollateral, Result.bind_error, latestPrice_ne_token, Result.mulU_ne_error,
    Result.divU_ne_error, and_false, exists_false, or_self] at h

end Views

/-! ## The parts of a call -/

section Parts

variable {α β : Type} {x : EngineProc α} {f : α → EngineProc β}

theorem keeps_bind (hx : Keeps this standard (x w))
    (hf : ∀ a w, Custody this standard w → Keeps this standard (f a w)) :
    Keeps this standard ((x >>= f) w) :=
  Proc.safe_bind _ hx hf

theorem keeps_tx {x : EngineTx α} (hok : ∀ a w', x w = .ok (a, w') → Custody this standard w')
    (herr : ∀ b n, x w ≠ .error (.error (.token (.insufficientBalance this b n)))) :
    Keeps this standard ((Proc.tx x : EngineProc α) w) :=
  Proc.safe_tx hok fun _ he b n hshort => herr b n (hshort ▸ he)

theorem keeps_view {f : World → Result EngineError α} (hw : Custody this standard w)
    (herr : ∀ x, f w ≠ .error (.error (.token x))) :
    Keeps this standard ((Proc.tx (Tx.view f) : EngineProc α) w) := by
  refine keeps_tx (fun a w' h => ?_) fun b n h => herr _ (Tx.view_error.mp h)
  obtain ⟨-, rfl⟩ := Tx.view_ok.mp h
  exact hw

theorem keeps_guarded {body : EngineProc α} (hw : Custody this standard w)
    (hbody : ∀ w, Custody this standard w → Keeps this standard (body w)) :
    Keeps this standard (guarded body w) := by
  refine keeps_bind (keeps_tx ?_ ?_) fun _ w hw => keeps_bind (hbody w hw) fun a w hw =>
    keeps_bind (keeps_tx ?_ ?_) fun _ w hw => Proc.safe_pure hw
  · intro _ w' h
    simp only [Tx.bind_ok, Tx.get_ok, Tx.revertIf_ok, Tx.modify_ok] at h
    obtain ⟨_, w, ⟨rfl, rfl⟩, _, _, ⟨-, rfl⟩, rfl⟩ := h
    exact custody_setEntered hw
  · intro b n h
    simp only [Tx.bind_error, Tx.get_ne_error, Tx.revertIf_error, Tx.modify_ne_error, reduceCtorEq,
      Revert.error.injEq, and_false, exists_false, or_self] at h
  · intro _ w' h
    rw [Tx.modify_ok.mp h]
    exact custody_setEntered hw
  · exact fun b n h => Tx.modify_ne_error h

/-- A query to a standard token is a call into it; one to a token of unknown code
hands over a world with custody. -/
theorem keeps_callCollateral {query : TokenQuery}
    (hok : w.Standard c.standard query.token → ∀ b tk,
      query.exec c.this (w.tokens query.token) = .ok (b, tk) →
        Custody c.this c.standard (w.setToken query.token tk))
    (herr : w.Standard c.standard query.token → ∀ b n,
      query.exec c.this (w.tokens query.token) ≠
        .error (.error (.insufficientBalance c.this b n)))
    (hfor : ¬ w.Standard c.standard query.token → Custody c.this c.standard w) :
    Keeps c.this c.standard (callCollateral c query w) := by
  refine Proc.safe_get ?_
  split
  · next hstd =>
    refine keeps_tx (fun b w' h => ?_) fun b n h => ?_
    · obtain ⟨tk, htk, rfl⟩ := callToken_ok.mp h
      exact hok hstd b tk htk
    · obtain ⟨d, hd, hinj⟩ := Tx.call_error.mp h
      cases hinj
      exact herr hstd b n hd
  · next hnot =>
    refine keeps_bind (Proc.safe_call (hfor hnot) fun _ _ _ hw => hw) fun answer w hw => ?_
    cases answer with
    | some b => exact Proc.safe_pure hw
    | none => exact keeps_view hw fun x h => by cases h

theorem keeps_revertIf {p : Prop} [Decidable p] {e : EngineError} (hw : Custody this standard w)
    (he : ∀ x, e ≠ .token x) : Keeps this standard ((Proc.tx (Tx.revertIf p e) : EngineProc Unit) w) := by
  refine Proc.safe_revertIf (fun _ b n hshort => ?_) fun _ => hw
  cases hshort
  exact he _ rfl

end Parts

/-! ## The internal functions -/

section Internal

variable {src dst badUser : Address}

theorem keeps_depositCollateral (hw : Custody c.this c.standard w) :
    Keeps c.this c.standard (_depositCollateral c token amount w) := by
  refine keeps_guarded hw fun w hw => ?_
  -- the record is written first, and agrees with the balance again after the transfer
  refine Proc.safe_bind (fun _ w₁ => w₁ = w.setCollateral c.sender token
    (w.engine.collateralToUser c.sender token + amount)) (Proc.safe_tx ?_ ?_) ?_
  · intro _ w₁ h
    simp only [Tx.tryModify_ok, Result.bind_ok, addU_ok, Result.pure_ok] at h
    obtain ⟨_, ⟨-, rfl⟩, rfl⟩ := h
    rfl
  · intro e h b n hshort
    subst hshort
    simp only [Tx.tryModify_error, Result.bind_error, Result.addU_ne_error, Result.pure_ne_error,
      and_false, exists_false, or_self] at h
  · rintro _ _ rfl
    refine keeps_bind (keeps_callCollateral ?_ ?_ ?_) fun success w hw => keeps_revertIf hw (by simp)
    · intro _ b tk h
      obtain ⟨-, -, -, -, _, rfl⟩ := ERC20.transferFrom_ok.mp h
      refine custody_write hw (ERC20.spend_noApproval (hw.no_approval token)) ?_
      simp [TokenQuery.token, debit_of_ne c.sender_ne.symm]
      omega
    · exact fun _ b n h => c.sender_ne (ERC20.transferFrom_short h).symm
    · exact fun hfor => custody_foreign hw hfor

theorem keeps_reedemCollateral (hw : Custody c.this c.standard w) (hdst : dst ≠ c.this) :
    Keeps c.this c.standard (_reedemCollateral c src dst token amount w) := by
  refine keeps_guarded hw fun w hw => ?_
  refine Proc.safe_bind (fun _ w₁ => amount ≤ w.engine.collateralToUser src token ∧
    w₁ = w.setCollateral src token (w.engine.collateralToUser src token - amount))
    (Proc.safe_tx ?_ ?_) ?_
  · intro _ w₁ h
    simp only [Tx.tryModify_ok, Result.bind_ok, subU_ok, Result.pure_ok] at h
    obtain ⟨_, ⟨hrec, rfl⟩, rfl⟩ := h
    exact ⟨hrec, rfl⟩
  · intro e h b n hshort
    subst hshort
    simp only [Tx.tryModify_error, Result.bind_error, Result.subU_ne_error, Result.pure_ne_error,
      and_false, exists_false, or_self] at h
  · rintro _ _ ⟨hrec, rfl⟩
    refine keeps_bind (keeps_callCollateral ?_ ?_ ?_) fun success w hw => keeps_revertIf hw (by simp)
    · intro _ b tk h
      obtain ⟨-, -, -, hheld, rfl⟩ := ERC20.transfer_ok.mp h
      refine custody_write hw (hw.no_approval token) ?_
      simp only [TokenQuery.token, World.setCollateral_tokens, ERC20.move_balances,
        credit_of_ne hdst.symm, debit_self] at hheld ⊢
      omega
    · -- the payment is at most the record, and all records together are held
      intro hstd b n h
      have hshort := (ERC20.transfer_short h).2
      have hbacked := hw.backed token hstd
      have hle := le_sum (fun u => w.engine.collateralToUser u token) src
      simp only [TokenQuery.token, World.setCollateral_tokens] at hshort
      omega
    · exact fun hfor => custody_foreign hw hfor

theorem keeps_mint (hw : Custody c.this c.standard w) :
    Keeps c.this c.standard (_mint c amount w) := by
  refine keeps_guarded hw fun w hw => keeps_tx ?_ ?_
  · intro _ w' h
    simp only [Tx.bind_ok, Tx.tryModify_ok, Result.bind_ok, addU_ok, Result.pure_ok, callCoin_ok,
      StableCoin.mint_ok, Tx.revertIf_ok] at h
    obtain ⟨_, _, ⟨_, ⟨-, rfl⟩, rfl⟩, _, _, ⟨_, ⟨-, -, -, -, _, rfl⟩, rfl⟩, -, rfl⟩ := h
    refine custody_setToken (custody_setMinted hw) ?_ (hw.no_approval _)
    simp [credit_of_ne c.sender_ne.symm]
  · intro b n h
    simp only [Tx.bind_error, Tx.tryModify_error, Result.bind_error, Result.addU_ne_error,
      Result.pure_ne_error, callCoin, Tx.call_error, Tx.revertIf_error, reduceCtorEq,
      Revert.error.injEq, and_false, exists_false, or_self] at h

theorem keeps_burn (hw : Custody c.this c.standard w) :
    Keeps c.this c.standard (_burn c c.sender badUser amount w) := by
  refine keeps_tx ?_ ?_
  · intro _ w' h
    simp only [Tx.bind_ok, Tx.tryModify_ok, Result.bind_ok, subU_ok, Result.pure_ok, Tx.get_ok,
      callToken_ok, ERC20.transferFrom_ok, Tx.revertIf_ok, callCoin_ok, StableCoin.burn_ok] at h
    obtain ⟨_, _, ⟨_, ⟨-, rfl⟩, rfl⟩, _, _, ⟨rfl, rfl⟩, _, _, ⟨_, ⟨rfl, -, -, -, hfunds, rfl⟩, rfl⟩, _,
      _, ⟨-, rfl⟩, _, ⟨-, -, -, _, rfl⟩, rfl⟩ := h
    rw [setCoin_erc20]
    -- the coins pulled in are the coins destroyed
    simp only [World.setToken_engine, World.coin_erc20, World.setToken_tokens, update_self,
      World.setToken_setToken, ERC20.move_destroy]
    refine custody_setToken (custody_setMinted hw) ?_ ?_
    · simp [debit_of_ne c.sender_ne.symm]
    · exact ERC20.spend_noApproval (hw.no_approval _)
  · intro b n h
    simp only [Tx.bind_error, Tx.tryModify_error, Result.bind_error, Result.subU_ne_error,
      Result.pure_ne_error, Tx.get_ne_error, callToken, callCoin, Tx.call_error, Tx.revertIf_error,
      reduceCtorEq, Revert.error.injEq, and_false, exists_false, or_false, false_or] at h
    obtain ⟨_, _, -, _, _, -, d, hd, hinj⟩ := h
    cases hinj
    exact c.sender_ne (ERC20.transferFrom_short hd).symm

end Internal

theorem keeps_validAmount (hw : Custody this standard w) :
    Keeps this standard (validAmount amount w) :=
  keeps_revertIf hw (by simp)

theorem keeps_checkSender (hw : Custody c.this c.standard w) :
    Keeps c.this c.standard (checkSender c w) :=
  keeps_view hw fun _ => _checkHealthFactorOrRevert_ne_token

theorem keeps_liquidationTerms {badUser : Address} (hw : Custody this standard w) :
    Keeps this standard ((Proc.tx (liquidationTerms badUser token amount) : EngineProc _) w) := by
  refine keeps_tx ?_ ?_
  · intro _ w' h
    simp only [liquidationTerms, Tx.bind_ok, Tx.get_ok, Tx.revertIf_ok, Tx.view_ok, Tx.pure_ok] at h
    obtain ⟨_, w, ⟨rfl, rfl⟩, _, _, ⟨-, rfl⟩, _, _, ⟨-, rfl⟩, _, _, ⟨-, rfl⟩, _, _, ⟨-, rfl⟩, _, _,
      ⟨-, rfl⟩, _, _, ⟨-, rfl⟩, _, _, ⟨-, rfl⟩, -, rfl⟩ := h
    exact hw
  · intro b n h
    simp only [liquidationTerms, Tx.bind_error, Tx.get_ne_error, Tx.revertIf_error, Tx.view_error,
      getHealthFactor_ne_token, _convertDRStoCollateral_ne_token, Result.mulU_ne_error,
      Result.divU_ne_error, Result.addU_ne_error, Tx.pure_ne_error, reduceCtorEq,
      Revert.error.injEq, and_false, exists_false, or_self] at h

end CustodyLemmas

open CustodyLemmas

/-! ## Every call -/

/-- Every engine call keeps custody, whatever the tokens it calls do. -/
theorem keeps_engine {c : Ctx} {w : World} (op : EngineOp) (hw : Custody c.this c.standard w) :
    Keeps c.this c.standard (op.exec c w) := by
  cases op with
  | depositCollateralAndMintDRS t a m =>
    exact keeps_bind (keeps_depositCollateral hw) fun _ _ hw =>
      keeps_bind (keeps_mint hw) fun _ _ hw => keeps_checkSender hw
  | depositCollateral t a =>
    exact keeps_bind (keeps_validAmount hw) fun _ _ hw => keeps_depositCollateral hw
  | mintDRS a =>
    exact keeps_bind (keeps_validAmount hw) fun _ _ hw =>
      keeps_bind (keeps_mint hw) fun _ _ hw => keeps_checkSender hw
  | burnAndReedemCollateral t a b =>
    exact keeps_bind (keeps_burn hw) fun _ _ hw =>
      keeps_bind (keeps_reedemCollateral hw c.sender_ne) fun _ _ hw => keeps_checkSender hw
  | reedemCollateral t a =>
    exact keeps_bind (keeps_validAmount hw) fun _ _ hw =>
      keeps_bind (keeps_reedemCollateral hw c.sender_ne) fun _ _ hw => keeps_checkSender hw
  | burnDRS a => exact keeps_bind (keeps_validAmount hw) fun _ _ hw => keeps_burn hw
  | liquidate u t d =>
    exact keeps_bind (keeps_validAmount hw) fun _ _ hw =>
      keeps_bind (keeps_liquidationTerms hw) fun _ _ hw => keeps_bind (keeps_burn hw) fun _ _ hw =>
        keeps_bind (keeps_reedemCollateral hw c.sender_ne) fun _ _ hw =>
          keeps_bind (keeps_view hw fun _ => getHealthFactor_ne_token) fun _ _ hw =>
            keeps_revertIf hw (by simp)

/-- So does every other call: a token call of someone else changes the engine's
balance by what it sends, and that is counted. -/
theorem keeps_call {c : Ctx} {w : World} (call : Call) (hw : Custody c.this c.standard w) :
    Keeps c.this c.standard (call.exec c w) := by
  have hne := c.sender_ne
  cases call with
  | engine op => exact keeps_engine op hw
  | token t op =>
    refine keeps_tx ?_ ?_
    · intro _ w' h
      simp only [Tx.bind_ok, userCall_ok, noteSent_ok] at h
      obtain ⟨_, _, ⟨tk, htk, rfl⟩, rfl⟩ := h
      obtain ⟨hbal, hno⟩ := ERC20.passive_holder htk hne (hw.no_approval t)
      exact custody_sent _ _ _ hw hbal hno
    · intro b n h
      simp only [Tx.bind_error, userCall, Tx.call_error, noteSent, Tx.modify_ne_error, reduceCtorEq,
        and_false, exists_false, or_self] at h
  | coin op =>
    refine keeps_tx ?_ ?_
    · intro _ w' h
      simp only [Tx.bind_ok, callCoin_ok, Tx.get_ok, noteSent_ok] at h
      obtain ⟨_, _, ⟨d, hd, rfl⟩, _, _, ⟨rfl, rfl⟩, rfl⟩ := h
      cases op with
      | mint r a =>
        simp only [CoinOp.exec, Tx.bind_ok, StableCoin.mint_ok, Tx.pure_ok] at hd
        obtain ⟨_, _, ⟨-, -, -, -, _, rfl⟩, -, rfl⟩ := hd
        refine custody_sent w.engine.drs (w.coin.erc20.issue r a ‹_›) _ hw ?_
          (hw.no_approval _)
        simp [CoinOp.sentTo, credit_apply, @eq_comm _ c.this]
        split <;> rfl
      | burn a =>
        obtain ⟨-, -, -, _, rfl⟩ := StableCoin.burn_ok.mp hd
        refine custody_sent w.engine.drs (w.coin.erc20.destroy c.sender a ‹_›) _ hw ?_
          (hw.no_approval _)
        simp [CoinOp.sentTo, debit_of_ne hne.symm]
      | transferOwnership o | renounceOwnership =>
        obtain ⟨_, -, rfl⟩ := StableCoin.superOwnable_ok.mp hd
        have hcust := custody_sent w.engine.drs w.coin.erc20 0 hw rfl (hw.no_approval _)
        exact ⟨hcust.no_approval, hcust.backed⟩
    · intro b n h
      simp only [Tx.bind_error, callCoin, Tx.call_error, Tx.get_ne_error, noteSent,
        Tx.modify_ne_error, reduceCtorEq, and_false, exists_false, or_self] at h
  | issue t a v =>
    refine keeps_tx ?_ ?_
    · intro _ w' h
      simp only [Tx.bind_ok, notCoin_ok, userCall_ok, ERC20._mint_ok, noteSent_ok] at h
      obtain ⟨_, w, ⟨-, rfl⟩, _, _, ⟨_, ⟨-, _, rfl⟩, rfl⟩, rfl⟩ := h
      refine custody_sent _ _ _ hw ?_ (hw.no_approval t)
      simp [credit_apply, @eq_comm _ c.this]
      split <;> rfl
    · intro b n h
      simp only [Tx.bind_error, notCoin, Tx.view_error, userCall, Tx.call_error, noteSent,
        Tx.modify_ne_error, reduceCtorEq, and_false, exists_false, or_self, or_false] at h
      split at h <;> cases h
  | retire t v =>
    refine keeps_tx ?_ ?_
    · intro _ w' h
      simp only [Tx.bind_ok, notCoin_ok, userCall_ok, ERC20.burn, ERC20._burn_ok] at h
      obtain ⟨_, w, ⟨-, rfl⟩, _, ⟨-, _, rfl⟩, rfl⟩ := h
      refine custody_setToken hw ?_ (hw.no_approval t)
      simp [debit_of_ne hne.symm]
    · intro b n h
      simp only [Tx.bind_error, notCoin, Tx.view_error, userCall, Tx.call_error, reduceCtorEq,
        and_false, exists_false, or_false] at h
      split at h <;> cases h
  | block env =>
    refine keeps_tx (x := Tx.modify fun w => { w with env := env }) ?_ ?_
    · intro _ w' h
      rw [Tx.modify_ok.mp h]
      exact ⟨hw.no_approval, hw.backed⟩
    · exact fun b n h => Tx.modify_ne_error h

/-! ## Every run -/

variable {this : Address} {standard : Address → Bool} {w₀ : World} {m : EngineMachine}
  {events : List (Event (Msg this) Bool)}

theorem custody_run (h₀ : Deployed this w₀) (hrun : Run (Step this standard) ⟨w₀, []⟩ events m) :
    m.Sound (Custody this standard) (fun _ => True) (NotShort this) := by
  obtain ⟨tokens, feeds, hbuilt⟩ := h₀.built
  obtain ⟨hcoll, -⟩ := constructor_ok hbuilt
  have hstart : Custody this standard w₀ :=
    ⟨fun t spender => h₀.no_allowance t spender, fun t _ => by simp [hcoll, h₀.sent_before]⟩
  refine Machine.sound_run (fun l w hw => ?_) hrun (fun ev _ => ?_) (Machine.sound_idle hstart)
  · exact keeps_call (c := ⟨this, l.sender, standard, l.sender_ne⟩) l.call hw
  · cases ev <;> trivial

/-- Custody of both engines: the recorded collateral of a standard token is at
most the engine's balance and equals it when nobody sent the token to the engine
directly, and no engine call reverts because the engine lacks a token. For
`StableCoinEngine` this includes the states in which a token of unknown code has
control. -/
theorem engines_custody :
    (∀ (this : Address) (w₀ w : Dsc.World) (msgs : List Dsc.Msg), Dsc.Deployed this w₀ →
      Run (Dsc.Step this) w₀ msgs w →
      (∀ t, ∑ u, w.engine.collateralToUser u t ≤ (w.tokens t).balances this ∧
        ((w₀.tokens t).balances this = 0 →
          (∀ m ∈ msgs, m.call.sentTo this w₀.engine.dsc t = 0) →
          ∑ u, w.engine.collateralToUser u t = (w.tokens t).balances this)) ∧
      ∀ (c : Dsc.Ctx) (op : Dsc.EngineOp) (balance needed : Nat), c.this = this →
        op.exec c w ≠ .error (.error (.token (.insufficientBalance this balance needed)))) ∧
    (∀ (this : Address) (standard : Address → Bool) (w₀ : World) (m : EngineMachine)
      (events : List (Event (Msg this) Bool)), Deployed this w₀ →
      Run (Step this standard) ⟨w₀, []⟩ events m →
      (∀ t, m.world.Standard standard t →
        ∑ u, m.world.engine.collateralToUser u t ≤ (m.world.tokens t).balances this ∧
        (m.world.sent t = 0 →
          ∑ u, m.world.engine.collateralToUser u t = (m.world.tokens t).balances this)) ∧
      ∀ (ev : Event (Msg this) Bool) start stack (balance needed : Nat),
        m.fire (Msg.exec standard) ev ≠ some (start, stack,
          .reverted (.error (.token (.insufficientBalance this balance needed))))) := by
  constructor
  · intro this w₀ w msgs h₀ hrun
    refine ⟨fun t => ⟨(Dsc.custody_run h₀ hrun).covers, fun hbefore hnone => ?_⟩, ?_⟩
    · have hbacked := (Dsc.custody_run (t := t) h₀ hrun).backed
      have hsum : (msgs.map fun m => m.call.sentTo this w₀.engine.dsc t).sum = 0 := by
        simpa [List.sum_eq_zero_iff] using hnone
      omega
    · rintro c op balance needed rfl
      exact Dsc.no_shortfall (fun t => ⟨_, Dsc.custody_run h₀ hrun⟩) op balance needed
  · intro this standard w₀ m events h₀ hrun
    have hsound := custody_run h₀ hrun
    refine ⟨fun t ht => ?_, ?_⟩
    · have hbacked := hsound.world.backed t ht
      exact ⟨by omega, fun hnone => by omega⟩
    · intro ev start stack balance needed hfire
      have hsafe := (Machine.sound_fire
        (fun l _ => keeps_call (c := ⟨this, l.sender, standard, l.sender_ne⟩) l.call hsound.world)
        hsound (by cases ev <;> trivial) hfire).1
      exact hsafe balance needed rfl

/-! ### A token that keeps the engine waiting

Engine at `1`, stablecoin at `2`, a standard token at `3` with its feed at `4`.
The account `8` deposits one whole token, and then a token at `9` whose code
nobody knows. -/

def sampleWorld : World where
  engine :=
    { tokenAddressToPriceFeed := update (fun _ => 0) 3 4
      userToDRSminted := fun _ => 0
      collateralToUser := fun _ _ => 0
      acceptedTokens := [3]
      drs := 2
      entered := false }
  tokens := update (fun _ => ERC20.empty) 3 (ERC20.empty.issue 8 (3 * 10 ^ 18) (by decide))
  drsOwner := 1
  env := ⟨1000, fun _ => none, rfl⟩
  sent := fun _ => 0

theorem sampleWorld_deployed : Deployed 1 sampleWorld := by
  refine ⟨⟨[3], [4], rfl⟩, fun t spender => ?_, fun t => ?_⟩
  · by_cases ht : t = 3
    · subst ht
      rfl
    · simp [sampleWorld, ht, ERC20.empty]
  · by_cases ht : t = 3
    · subst ht
      rfl
    · simp [sampleWorld, ht, ERC20.empty]

def depositEvents : List (Event (Msg 1) Bool) :=
  [.call ⟨8, by decide, .token 3 (.approve 1 (10 ^ 18))⟩,
   .call ⟨8, by decide, .engine (.depositCollateral 3 (10 ^ 18))⟩,
   .call ⟨8, by decide, .engine (.depositCollateral 9 (10 ^ 18))⟩]

/-- While the token at `9` has control, the engine holds the token at `3` it has
recorded; and so does `DSCEngine` after the same deposit. -/
theorem engines_custody_waiting :
    (∃ w, Run (Dsc.Step 1) Dsc.sampleWorld
        [⟨5, Dsc.sampleEnv Dsc.price2000, .token 3 (.approve 1 (10 ^ 18))⟩,
         ⟨5, Dsc.sampleEnv Dsc.price2000, .engine (.depositCollateral 3 (10 ^ 18))⟩] w ∧
      w.engine.collateralToUser 5 3 = 10 ^ 18 ∧
      ∑ u, w.engine.collateralToUser u 3 = (w.tokens 3).balances 1) ∧
    ∃ m, Run (Step 1 fun t => t = 3) ⟨sampleWorld, []⟩ depositEvents m ∧ m.stack.length = 1 ∧
      (m.world.tokens 3).balances 1 = 10 ^ 18 ∧
      ∑ u, m.world.engine.collateralToUser u 3 = (m.world.tokens 3).balances 1 := by
  constructor
  · have hrun : Run (Dsc.Step 1) Dsc.sampleWorld
        [⟨5, Dsc.sampleEnv Dsc.price2000, .token 3 (.approve 1 (10 ^ 18))⟩,
         ⟨5, Dsc.sampleEnv Dsc.price2000, .engine (.depositCollateral 3 (10 ^ 18))⟩] _ :=
      Run.of_foldlM (fun _ _ _ => Dsc.step_of_next) (Option.some_get (by decide +kernel)).symm
    have hcust := (engines_custody.1 1 _ _ _ Dsc.sampleWorld_deployed hrun).1 3
    exact ⟨_, hrun, by decide +kernel, hcust.2 (by decide +kernel) (by decide +kernel)⟩
  · have hrun : Run (Step 1 fun t => t = 3) ⟨sampleWorld, []⟩ depositEvents _ :=
      Run.of_foldlM (fun _ _ _ h => h) (Option.some_get (by decide +kernel)).symm
    have hcust := (engines_custody.2 1 _ _ _ _ sampleWorld_deployed hrun).1 3 (.inr rfl)
    exact ⟨_, hrun, by decide +kernel, by decide +kernel, hcust.2 (by decide +kernel)⟩

end AdvFoundry.Drs
