import AdvFoundry.Drs.Backing
import AdvFoundry.Drs.Repayment

/-!
# Over-collateralisation while calls wait

`StableCoinEngine` checks the health of the caller after it has released its
guard, and it calls whatever token the caller names. So a token of unknown code
may run while a record is already lower and no check was made.

At fixed prices, with distinct accepted tokens (one listed twice counts twice), this
is safe (`overcollateralised_waiting`). While a call waits the guard is taken, and the
only engine function that passes then is `burnDRS`, which improves a position: `Held`
is what a waiting call relies on. When no call waits everybody holds twice the
recorded debt, while one waits everybody but the account whose collateral is on its
way out; and if the accepted tokens are standard ones, no collateral that counts is
ever on its way while others act.
-/

namespace AdvFoundry.Drs

open Function

/-- The records, as those of `DSCEngine`. -/
def StableCoinEngine.records (e : StableCoinEngine) : Dsc.DSCEngine where
  priceFeeds := e.tokenAddressToPriceFeed
  collateralToUser := e.collateralToUser
  dscMinted := e.userToDRSminted
  dsc := e.drs
  collateralTokens := e.acceptedTokens
  entered := e.entered

/-- The feeds of the accepted tokens, when they answer, answer the prices `P`. -/
def Quotes (P : Address → Nat) (env : Env) (e : StableCoinEngine) : Prop :=
  ∀ t ∈ e.acceptedTokens, ∀ p, latestPrice env e t = .ok p → p = P t

/-- The user holds collateral worth twice the recorded debt. -/
def Covered (P : Address → Nat) (e : StableCoinEngine) (u : Address) : Prop :=
  2 * e.userToDRSminted u ≤ Dsc.accountValue P e.records u

/-- A world with the engine's configuration, at the prices `P`. -/
structure AtPrices (P : Address → Nat) (e₀ : StableCoinEngine) (w : World) : Prop where
  tokens : w.engine.acceptedTokens = e₀.acceptedTokens
  feeds : w.engine.tokenAddressToPriceFeed = e₀.tokenAddressToPriceFeed
  quotes : Quotes P w.env w.engine

/-- Everybody is covered, but for one account at most. -/
structure CoveredOff (P : Address → Nat) (e₀ : StableCoinEngine) (x : Option Address)
    (w : World) : Prop extends AtPrices P e₀ w where
  covered : ∀ u, some u ≠ x → Covered P w.engine u

/-- In any state one account at most is not covered, and none when the guard is
free or when no accepted token can have control. -/
structure Solvent (P : Address → Nat) (e₀ : StableCoinEngine) (standard : Address → Bool)
    (w : World) : Prop extends AtPrices P e₀ w where
  others : ∃ x, ∀ u, u ≠ x → Covered P w.engine u
  everyone : w.engine.entered = false ∨ (∀ t ∈ e₀.acceptedTokens, standard t = true) →
    ∀ u, Covered P w.engine u

/-- What a waiting call relies on: the guard stays, the records of collateral
with it, and no debt grows. -/
structure Held (w w' : World) : Prop where
  entered : w'.engine.entered = w.engine.entered
  collateral : w.engine.entered = true → w'.engine.collateralToUser = w.engine.collateralToUser
  debt : w.engine.entered = true → ∀ u, w'.engine.userToDRSminted u ≤ w.engine.userToDRSminted u

theorem held_refl (w : World) : Held w w :=
  ⟨rfl, fun _ => rfl, fun _ _ => Nat.le_refl _⟩

theorem held_trans (w w₁ w₂ : World) (h : Held w w₁) (h' : Held w₁ w₂) : Held w w₂ where
  entered := h'.entered.trans h.entered
  collateral := fun hw => (h'.collateral (h.entered.trans hw)).trans (h.collateral hw)
  debt := fun hw u => Nat.le_trans (h'.debt (h.entered.trans hw) u) (h.debt hw u)

/-- From free to free, a call may have done anything. -/
theorem held_of_free {w w' : World} (hw : w.engine.entered = false)
    (hw' : w'.engine.entered = false) : Held w w' where
  entered := hw'.trans hw.symm
  collateral := fun h => absurd (hw.symm.trans h) Bool.false_ne_true
  debt := fun h => absurd (hw.symm.trans h) Bool.false_ne_true

namespace SolvencyLemmas

variable {P : Address → Nat} {env : Env} {e e' e₀ : StableCoinEngine} {w w' : World}
  {standard : Address → Bool} {u user src token debtor : Address} {amount : Nat}

/-! ## Values and health factors -/

/-- The loop adds the values of the listed tokens to its accumulator. -/
theorem total_loop_value {tokens : List Address} {total value : Nat}
    (hquotes : ∀ t ∈ tokens, ∀ p, latestPrice env e t = .ok p → p = P t)
    (h : tokens.foldlM (fun totalCollateralInRs token => do
      let price ← latestPrice env e token
      let unit ← mulU price REMAINING_PRECISION
      let scaled ← mulU (e.collateralToUser user token) unit
      let value ← divU scaled PRECISION
      addU totalCollateralInRs value) total = .ok value) :
    value = total + (tokens.map fun t => Dsc.valueInUSD (P t) (e.collateralToUser user t)).sum := by
  induction tokens generalizing total with
  | nil =>
    rw [List.foldlM_nil, Result.pure_ok] at h
    rw [List.map_nil, List.sum_nil, h, Nat.add_zero]
  | cons t ts ih =>
    simp only [List.foldlM_cons, Result.bind_ok, mulU_ok, divU_ok, addU_ok] at h
    obtain ⟨_, ⟨p, hp, _, ⟨-, rfl⟩, _, ⟨-, rfl⟩, _, ⟨-, rfl⟩, -, rfl⟩, hrest⟩ := h
    have hvalue : e.collateralToUser user t * (p * REMAINING_PRECISION) / PRECISION =
        Dsc.valueInUSD (P t) (e.collateralToUser user t) := by
      rw [hquotes t List.mem_cons_self p hp, Nat.mul_comm]
      rfl
    rw [ih (fun t' ht' => hquotes t' (List.mem_cons_of_mem t ht')) hrest, hvalue, List.map_cons,
      List.sum_cons, Nat.add_assoc]

theorem getCollateral_value {value : Nat} (hquotes : Quotes P env e)
    (h : _getCollateralInUSD env e user = .ok value) :
    value = Dsc.accountValue P e.records user := by
  rw [total_loop_value hquotes h, Nat.zero_add]
  rfl

/-- At the prices `P`, a health factor of at least the minimum is cover for twice
the debt. -/
theorem covered_iff {f : Nat} (hquotes : Quotes P env e)
    (h : getHealthFactor env e user = .ok f) : MINIMUM_HEALTH_FACTOR ≤ f ↔ Covered P e user := by
  simp only [getHealthFactor, _getAccountInformation, Result.bind_ok, Result.pure_ok] at h
  obtain ⟨_, ⟨value, hvalue, rfl⟩, hf⟩ := h
  rw [Covered, ← getCollateral_value hquotes hvalue]
  rcases eq_or_ne (e.userToDRSminted user) 0 with hzero | hdebt
  · rw [hzero, RepaymentLemmas._getHealthFactor_zero] at hf
    subst hf
    exact iff_of_true (by decide) (by rw [hzero]; exact Nat.zero_le _)
  · obtain ⟨-, rfl⟩ := (RepaymentLemmas._getHealthFactor_pos hdebt).mp hf
    have hmin := @Dsc.min_le_healthFactor_iff (e.userToDRSminted user) value
    rw [Dsc.healthFactor, if_neg hdebt] at hmin
    exact hmin

theorem covered_of_check (hquotes : Quotes P env e)
    (h : _checkHealthFactorOrRevert env e user = .ok ()) : Covered P e user := by
  obtain ⟨f, hf, hmin⟩ := _checkHealthFactorOrRevert_ok.mp h
  exact (covered_iff hquotes hf).mp hmin

/-- More collateral and less debt keep a position covered. -/
theorem covered_mono (h : Covered P e u) (htokens : e'.acceptedTokens = e.acceptedTokens)
    (hcollateral : ∀ t, e.collateralToUser u t ≤ e'.collateralToUser u t)
    (hdebt : e'.userToDRSminted u ≤ e.userToDRSminted u) : Covered P e' u := by
  have hvalue : Dsc.accountValue P e.records u ≤ Dsc.accountValue P e'.records u :=
    Dsc.accountValue_mono htokens hcollateral
  exact Nat.le_trans (Nat.mul_le_mul_left 2 hdebt) (Nat.le_trans h hvalue)

/-- The record of a token that is not accepted does not count. -/
theorem covered_foreign (h : Covered P w.engine u) (ht : token ∉ w.engine.acceptedTokens) :
    Covered P (w.setCollateral src token amount).engine u := by
  have hvalue : Dsc.accountValue P (w.setCollateral src token amount).engine.records u =
      Dsc.accountValue P w.engine.records u := by
    refine congrArg List.sum (List.map_congr_left fun t hmem => ?_)
    have hne : t ≠ token := by
      rintro rfl
      exact ht hmem
    show Dsc.valueInUSD (P t) (update w.engine.collateralToUser src
      (update (w.engine.collateralToUser src) token amount) u t) = _
    rcases eq_or_ne u src with rfl | hu
    · rw [update_self, update_of_ne hne]
      rfl
    · rw [update_of_ne hu]
      rfl
  rw [Covered, hvalue]
  exact h

end SolvencyLemmas

open SolvencyLemmas

/-! ## Worlds at the same prices -/

section Worlds

variable {P : Address → Nat} {env : Env} {e e' e₀ : StableCoinEngine} {w w' : World}
  {standard : Address → Bool} {user : Address}

theorem Quotes.of_config (h : Quotes P env e) (htokens : e'.acceptedTokens = e.acceptedTokens)
    (hfeeds : e'.tokenAddressToPriceFeed = e.tokenAddressToPriceFeed) : Quotes P env e' := by
  intro t ht p hp
  rw [htokens] at ht
  rw [latestPrice, hfeeds] at hp
  exact h t ht p hp

/-- What a write leaves of the configuration. -/
theorem AtPrices.of_write (h : AtPrices P e₀ w)
    (htokens : w'.engine.acceptedTokens = w.engine.acceptedTokens)
    (hfeeds : w'.engine.tokenAddressToPriceFeed = w.engine.tokenAddressToPriceFeed)
    (henv : w'.env = w.env) : AtPrices P e₀ w' where
  tokens := htokens.trans h.tokens
  feeds := hfeeds.trans h.feeds
  quotes := henv ▸ Quotes.of_config h.quotes htokens hfeeds

theorem Solvent.of_all (h : CoveredOff P e₀ none w) : Solvent P e₀ standard w :=
  ⟨h.toAtPrices, ⟨0, fun u _ => h.covered u (by simp)⟩, fun _ u => h.covered u (by simp)⟩

theorem Solvent.all (h : Solvent P e₀ standard w) (hfree : w.engine.entered = false) :
    CoveredOff P e₀ none w :=
  ⟨h.toAtPrices, fun u _ => h.everyone (.inl hfree) u⟩

/-- What others do while a call waits keeps the positions covered that were when
it began to wait. -/
theorem CoveredOff.held {x : Option Address} (h : CoveredOff P e₀ x w)
    (hentered : w.engine.entered = true) (hprices : AtPrices P e₀ w') (hheld : Held w w') :
    CoveredOff P e₀ x w' := by
  refine ⟨hprices, fun u hu => ?_⟩
  refine covered_mono (h.covered u hu) (hprices.tokens.trans h.tokens.symm) (fun t => ?_)
    (hheld.debt hentered u)
  rw [hheld.collateral hentered]

/-- A position that passes the check joins the covered ones. -/
theorem CoveredOff.check (h : CoveredOff P e₀ (some user) w)
    (hcheck : _checkHealthFactorOrRevert w.env w.engine user = .ok ()) :
    CoveredOff P e₀ none w := by
  refine ⟨h.toAtPrices, fun u _ => ?_⟩
  rcases eq_or_ne u user with rfl | hu
  · exact covered_of_check h.quotes hcheck
  · exact h.covered u (by simpa using hu)

end Worlds

/-! ## The functions -/

/-- A call, or a part of one, that goes from solvent to solvent. -/
abbrev Steady {α : Type} (P : Address → Nat) (e₀ : StableCoinEngine) (standard : Address → Bool)
    (w : World) (o : Outcome EngineError World TokenQuery Bool α) : Prop :=
  o.Relies (Solvent P e₀ standard) Held fun _ w' => Solvent P e₀ standard w' ∧ Held w w'

namespace SteadyLemmas

variable {α β : Type} {P : Address → Nat} {e₀ : StableCoinEngine} {c : Ctx} {w : World}
  {src dst token debtor : Address} {amount : Nat}

theorem steady_then {x : EngineProc α} {f : α → EngineProc β} (hx : Steady P e₀ c.standard w (x w))
    (hf : ∀ a w, Solvent P e₀ c.standard w → Steady P e₀ c.standard w (f a w)) :
    Steady P e₀ c.standard w ((x >>= f) w) :=
  Proc.relies_bind _ hx fun a w₁ h => Outcome.relies_mono (hf a w₁ h.1) fun _ _ h' =>
    ⟨h'.1, held_trans _ _ _ h.2 h'.2⟩

/-- A part that only looks. -/
theorem steady_look {x : EngineTx α} (hx : ∀ a w', x w = .ok (a, w') → w' = w)
    (hw : Solvent P e₀ c.standard w) :
    Steady P e₀ c.standard w ((Proc.tx x : EngineProc α) w) :=
  Proc.relies_tx fun a w' h => by
    rw [hx a w' h]
    exact ⟨hw, held_refl w⟩

theorem steady_validAmount (hw : Solvent P e₀ c.standard w) :
    Steady P e₀ c.standard w (validAmount amount w) :=
  steady_look (fun _ _ h => (Tx.revertIf_ok.mp h).2) hw

/-- A guarded body runs when the guard is free, and leaves it free. -/
theorem relies_guarded {I : World → Prop} {G : World → World → Prop} {Q : α → World → Prop}
    {body : EngineProc α} (hbody : w.engine.entered = false →
      (body (w.setEntered true)).Relies I G fun a w' => Q a (w'.setEntered false)) :
    (guarded body w).Relies I G Q := by
  refine Proc.relies_tx_bind fun _ w₁ h => ?_
  simp only [Tx.bind_ok, Tx.get_ok, Tx.revertIf_ok, Tx.modify_ok] at h
  obtain ⟨_, w, ⟨rfl, rfl⟩, _, _, ⟨hfree, rfl⟩, rfl⟩ := h
  refine Proc.relies_bind _ (hbody (Bool.eq_false_of_not_eq_true hfree)) fun a w' hQ =>
    Proc.relies_tx_bind fun _ w₂ h => ?_
  rw [Tx.modify_ok.mp h]
  exact hQ

/-- A call of a collateral token: a standard one runs, any other has control. -/
theorem relies_callCollateral {I : World → Prop} {G : World → World → Prop}
    {Q : Bool → World → Prop} {query : TokenQuery}
    (hstd : ∀ b tk, Q b (w.setToken query.token tk))
    (hfor : ¬ w.Standard c.standard query.token → I w)
    (hback : ∀ b w', I w' → G w w' → Q b w') : (callCollateral c query w).Relies I G Q := by
  refine Proc.relies_tx_bind fun _ _ h => ?_
  obtain ⟨rfl, rfl⟩ := Tx.get_ok.mp h
  split
  · refine Proc.relies_tx fun b w' h => ?_
    obtain ⟨tk, -, rfl⟩ := callToken_ok.mp h
    exact hstd b tk
  · next hnot =>
    refine Proc.relies_bind (fun a w' => ∀ b, Q b w')
      ⟨hfor hnot, fun a w' hI hG b => hback b w' hI hG⟩ fun answer w' hQ => ?_
    cases answer with
    | some b => exact hQ b
    | none => exact Proc.relies_tx fun _ _ h => by cases (Tx.view_ok.mp h).1

/-- The record grows before the token is called: everybody stays covered. -/
theorem steady_deposit (hw : Solvent P e₀ c.standard w) :
    Steady P e₀ c.standard w (_depositCollateral c token amount w) := by
  refine relies_guarded fun hfree => Proc.relies_tx_bind fun _ w₁ h => ?_
  simp only [Tx.tryModify_ok, Result.bind_ok, addU_ok, Result.pure_ok] at h
  obtain ⟨_, ⟨-, rfl⟩, rfl⟩ := h
  have hall := hw.all hfree
  have hrecorded : CoveredOff P e₀ none ((w.setEntered true).setCollateral c.sender token
      ((w.setEntered true).engine.collateralToUser c.sender token + amount)) := by
    refine ⟨hw.toAtPrices.of_write rfl rfl rfl, fun u _ => ?_⟩
    refine covered_mono (hall.covered u (by simp)) rfl (fun t => ?_) (Nat.le_refl _)
    have hrow : w.engine.collateralToUser c.sender ≤ update (w.engine.collateralToUser c.sender) token
        (w.engine.collateralToUser c.sender token + amount) :=
      le_update_self_iff.mpr (Nat.le_add_right _ amount)
    have hrecords : w.engine.collateralToUser ≤ update w.engine.collateralToUser c.sender _ :=
      le_update_self_iff.mpr hrow
    exact hrecords u t
  refine Proc.relies_bind (fun _ => CoveredOff P e₀ none) (relies_callCollateral ?_ ?_ ?_)
    fun success w' hw' => Proc.relies_tx fun _ _ h => ?_
  · exact fun _ _ => ⟨hrecorded.toAtPrices.of_write rfl rfl rfl, hrecorded.covered⟩
  · exact fun _ => Solvent.of_all hrecorded
  · exact fun _ w' hI hG => hrecorded.held rfl hI.toAtPrices hG
  · rw [(Tx.revertIf_ok.mp h).2]
    exact ⟨Solvent.of_all ⟨hw'.toAtPrices.of_write rfl rfl rfl, hw'.covered⟩, held_of_free hfree rfl⟩

/-- The record of `src` is lower while the token has control: everybody else
stays covered. -/
theorem relies_reedem (hw : Solvent P e₀ c.standard w) :
    (_reedemCollateral c src dst token amount w).Relies (Solvent P e₀ c.standard) Held
      fun _ w' => CoveredOff P e₀ (some src) w' ∧ w.engine.entered = false ∧
        w'.engine.entered = false := by
  refine relies_guarded fun hfree => Proc.relies_tx_bind fun _ w₁ h => ?_
  simp only [Tx.tryModify_ok, Result.bind_ok, subU_ok, Result.pure_ok] at h
  obtain ⟨_, ⟨-, rfl⟩, rfl⟩ := h
  have hall := hw.all hfree
  have hrecorded : CoveredOff P e₀ (some src) ((w.setEntered true).setCollateral src token
      ((w.setEntered true).engine.collateralToUser src token - amount)) := by
    refine ⟨hw.toAtPrices.of_write rfl rfl rfl, fun u hu => ?_⟩
    refine covered_mono (hall.covered u (by simp)) rfl (fun t => ?_) (Nat.le_refl _)
    have hne : u ≠ src := by simpa using hu
    simp only [World.setCollateral_engine, update_of_ne hne]
    exact Nat.le_refl _
  refine Proc.relies_bind (fun _ => CoveredOff P e₀ (some src)) (relies_callCollateral ?_ ?_ ?_)
    fun success w' hw' => Proc.relies_tx fun _ _ h => ?_
  · exact fun _ _ => ⟨hrecorded.toAtPrices.of_write rfl rfl rfl, hrecorded.covered⟩
  · intro hfor
    refine ⟨hrecorded.toAtPrices, ⟨src, fun u hu => hrecorded.covered u (by simpa using hu)⟩, ?_⟩
    rintro (htaken | hstd) u
    · cases htaken
    · -- a token of unknown code is not an accepted one
      refine covered_foreign (hall.covered u (by simp)) fun hmem => hfor (.inr ?_)
      exact hstd token (hw.tokens ▸ hmem)
  · exact fun _ w' hI hG => hrecorded.held rfl hI.toAtPrices hG
  · rw [(Tx.revertIf_ok.mp h).2]
    exact ⟨⟨hw'.toAtPrices.of_write rfl rfl rfl, hw'.covered⟩, hfree, rfl⟩

/-- New debt is the caller's, and the caller is checked. -/
theorem steady_mint (hw : Solvent P e₀ c.standard w) :
    Steady P e₀ c.standard w ((_mint c amount >>= fun _ => checkSender c) w) := by
  refine Proc.relies_bind (fun _ w' => CoveredOff P e₀ (some c.sender) w' ∧
    w.engine.entered = false ∧ w'.engine.entered = false)
    (Outcome.relies_of_settled SettleLemmas.settles_mint fun _ w' h => ?_)
    fun _ w' h => Proc.relies_tx fun _ w'' hview => ?_
  · obtain ⟨hcan, hfits, rfl⟩ := _mint_returned.mp h
    refine ⟨⟨hw.toAtPrices.of_write rfl rfl rfl, fun u hu => ?_⟩, hcan.free, hcan.free⟩
    refine covered_mono ((hw.all hcan.free).covered u (by simp)) rfl (fun _ => Nat.le_refl _) ?_
    have hne : u ≠ c.sender := by simpa using hu
    simp only [mintedWorld, World.setToken_engine, World.setMinted_engine, update_of_ne hne]
    exact Nat.le_refl _
  · obtain ⟨hcheck, rfl⟩ := Tx.view_ok.mp hview
    exact ⟨Solvent.of_all (h.1.check hcheck), held_of_free h.2.1 h.2.2⟩

/-- Collateral leaves the record of the caller, and the caller is checked. -/
theorem steady_reedem (hw : Solvent P e₀ c.standard w) :
    Steady P e₀ c.standard w
      ((_reedemCollateral c c.sender c.sender token amount >>= fun _ => checkSender c) w) := by
  refine Proc.relies_bind _ (relies_reedem hw) fun _ w' h => Proc.relies_tx fun _ w'' hview => ?_
  obtain ⟨hcheck, rfl⟩ := Tx.view_ok.mp hview
  exact ⟨Solvent.of_all (h.1.check hcheck), held_of_free h.2.1 h.2.2⟩

/-- Burning lowers a debt, whether a call waits or not. -/
theorem steady_burn (hw : Solvent P e₀ c.standard w) :
    Steady P e₀ c.standard w (_burn c c.sender debtor amount w) := by
  refine Outcome.relies_of_settled SettleLemmas.settles_tx fun _ w' h => ?_
  obtain ⟨hcan, hfunds, rfl⟩ := _burn_returned.mp h
  have hdebt (u : Address) :
      (burnedWorld w c.this debtor c.sender amount hfunds).engine.userToDRSminted u ≤
        w.engine.userToDRSminted u := update_le_self_iff.mpr (Nat.sub_le _ amount) u
  have hkeep {u : Address} (hu : Covered P w.engine u) :
      Covered P (burnedWorld w c.this debtor c.sender amount hfunds).engine u :=
    covered_mono hu rfl (fun _ => Nat.le_refl _) (hdebt u)
  obtain ⟨x, hx⟩ := hw.others
  exact ⟨⟨hw.toAtPrices.of_write rfl rfl rfl, ⟨x, fun u hu => hkeep (hx u hu)⟩,
    fun h u => hkeep (hw.everyone h u)⟩, rfl, fun _ => rfl, fun _ => hdebt⟩

/-- What the terms of a liquidation say of the account it is about. -/
theorem liquidationTerms_start {badUser : Address} {p : Nat × Nat} {w' : World}
    (h : liquidationTerms badUser token amount w = .ok (p, w')) :
    getHealthFactor w.env w.engine badUser = .ok p.1 := by
  simp only [liquidationTerms, Tx.bind_ok, Tx.get_ok, Tx.revertIf_ok, Tx.view_ok, Tx.pure_ok] at h
  obtain ⟨_, w, ⟨rfl, rfl⟩, _, _, ⟨-, rfl⟩, _, _, ⟨hstart, rfl⟩, _, _, ⟨-, rfl⟩, _, _, ⟨-, rfl⟩, _, _,
    ⟨-, rfl⟩, _, _, ⟨-, rfl⟩, _, _, ⟨-, rfl⟩, rfl, -⟩ := h
  exact hstart

/-- The account that is liquidated was covered when the call began, so a higher
health factor at the end is cover again. -/
theorem steady_liquidate {badUser : Address} (hw : Solvent P e₀ c.standard w) :
    Steady P e₀ c.standard w (liquidate c badUser token amount w) := by
  refine steady_then (steady_validAmount hw) fun _ w hw => Proc.relies_tx_bind fun terms w₁ hterms => ?_
  obtain rfl := PartLemmas.liquidationTerms_same hterms
  have hstart := liquidationTerms_start hterms
  obtain ⟨start, total⟩ := terms
  refine Proc.relies_bind _ (steady_burn hw) fun _ w₂ hburn => ?_
  refine Proc.relies_bind _ (relies_reedem hburn.1) fun _ w₃ hreedem => ?_
  obtain ⟨hoff, hfree₂, hfree₃⟩ := hreedem
  have hfree : w₁.engine.entered = false := hburn.2.entered.symm.trans hfree₂
  have hbefore : MINIMUM_HEALTH_FACTOR ≤ start :=
    (covered_iff hw.quotes hstart).mpr (hw.everyone (.inl hfree) badUser)
  refine Proc.relies_tx_bind fun final _ hview => Proc.relies_tx fun _ _ hrevert => ?_
  obtain ⟨hfinal, rfl⟩ := Tx.view_ok.mp hview
  obtain ⟨hrises, rfl⟩ := Tx.revertIf_ok.mp hrevert
  have hcovered := (covered_iff hoff.quotes hfinal).mp
    (Nat.le_trans hbefore (Nat.le_of_lt (Nat.lt_of_not_ge hrises)))
  refine ⟨Solvent.of_all ⟨hoff.toAtPrices, fun u _ => ?_⟩, held_of_free hfree hfree₃⟩
  rcases eq_or_ne u badUser with rfl | hu
  · exact hcovered
  · exact hoff.covered u (by simpa using hu)

end SteadyLemmas

open SteadyLemmas

/-! ## Every call -/

theorem steady_engine {P : Address → Nat} {e₀ : StableCoinEngine} {c : Ctx} {w : World}
    (op : EngineOp) (hw : Solvent P e₀ c.standard w) :
    Steady P e₀ c.standard w (op.exec c w) := by
  cases op with
  | depositCollateralAndMintDRS t a m =>
    exact steady_then (steady_deposit hw) fun _ _ hw => steady_mint hw
  | depositCollateral t a =>
    exact steady_then (steady_validAmount hw) fun _ _ hw => steady_deposit hw
  | mintDRS a => exact steady_then (steady_validAmount hw) fun _ _ hw => steady_mint hw
  | burnAndReedemCollateral t a b =>
    exact steady_then (steady_burn hw) fun _ _ hw => steady_reedem hw
  | reedemCollateral t a => exact steady_then (steady_validAmount hw) fun _ _ hw => steady_reedem hw
  | burnDRS a => exact steady_then (steady_validAmount hw) fun _ _ hw => steady_burn hw
  | liquidate u t d => exact steady_liquidate hw

/-- A call past the engine leaves the records, and a new block has the prices. -/
theorem steady_call {P : Address → Nat} {e₀ : StableCoinEngine} {c : Ctx} {w : World} (call : Call)
    (hprice : ∀ env, call = .block env → Quotes P env e₀) (hw : Solvent P e₀ c.standard w) :
    Steady P e₀ c.standard w (call.exec c w) := by
  have hsame {w' : World} (hengine : w'.engine = w.engine) (hquotes : Quotes P w'.env w'.engine) :
      Solvent P e₀ c.standard w' ∧ Held w w' := by
    obtain ⟨⟨htokens, hfeeds, -⟩, hothers, heveryone⟩ := hw
    rw [← hengine] at htokens hfeeds hothers heveryone
    refine ⟨⟨⟨htokens, hfeeds, hquotes⟩, hothers, heveryone⟩, ?_⟩
    exact ⟨hengine ▸ rfl, fun _ => hengine ▸ rfl, fun _ _ => hengine ▸ Nat.le_refl _⟩
  cases call with
  | engine op => exact steady_engine op hw
  | token t op =>
    refine Proc.relies_tx fun _ w' h => ?_
    simp only [Tx.bind_ok, userCall_ok, noteSent_ok] at h
    obtain ⟨_, _, ⟨tk, -, rfl⟩, rfl⟩ := h
    exact hsame rfl hw.quotes
  | coin op =>
    refine Proc.relies_tx fun _ w' h => ?_
    simp only [Tx.bind_ok, callCoin_ok, Tx.get_ok, noteSent_ok] at h
    obtain ⟨_, _, ⟨d, -, rfl⟩, _, _, ⟨rfl, rfl⟩, rfl⟩ := h
    exact hsame rfl hw.quotes
  | issue t a v =>
    refine Proc.relies_tx fun _ w' h => ?_
    simp only [Tx.bind_ok, notCoin_ok, userCall_ok, noteSent_ok] at h
    obtain ⟨_, w, ⟨-, rfl⟩, _, _, ⟨tk, -, rfl⟩, rfl⟩ := h
    exact hsame rfl hw.quotes
  | retire t v =>
    refine Proc.relies_tx fun _ w' h => ?_
    simp only [Tx.bind_ok, notCoin_ok, userCall_ok] at h
    obtain ⟨_, w, ⟨-, rfl⟩, tk, -, rfl⟩ := h
    exact hsame rfl hw.quotes
  | block env =>
    refine Proc.relies_tx (x := (Tx.modify fun w => { w with env := env } : EngineTx Unit)) fun _ w' h => ?_
    rw [Tx.modify_ok.mp h]
    exact hsame rfl (Quotes.of_config (hprice env rfl) hw.tokens hw.feeds)

/-! ## Every run -/

/-- In every block of the run the feeds, when they answer, answer the prices `P`. -/
structure FixedPrices (P : Address → Nat) (this : Address) (w₀ : World)
    (events : List (Event (Msg this) Bool)) : Prop where
  first : Quotes P w₀.env w₀.engine
  blocks : ∀ l : Msg this, .call l ∈ events → ∀ env, l.call = .block env → Quotes P env w₀.engine

section Runs

variable {P : Address → Nat} {this : Address} {standard : Address → Bool} {w₀ : World}
  {m : EngineMachine} {events : List (Event (Msg this) Bool)}

theorem steady_run (h₀ : Deployed this w₀) (hprice : FixedPrices P this w₀ events)
    (hrun : Run (Step this standard) ⟨w₀, []⟩ events m) :
    m.Steady (Solvent P w₀.engine standard) Held w₀ := by
  obtain ⟨tokens, feeds, hbuilt⟩ := h₀.built
  obtain ⟨-, hminted⟩ := constructor_ok hbuilt
  have hstart : CoveredOff P w₀.engine none w₀ := by
    refine ⟨⟨rfl, rfl, hprice.first⟩, fun u _ => ?_⟩
    rw [Covered, hminted u]
    exact Nat.zero_le _
  refine Machine.steady_run_of held_refl held_trans (fun l hl w hw => ?_) hrun
    ⟨Solvent.of_all hstart, held_refl w₀⟩
  exact steady_call (c := ⟨this, l.sender, standard, l.sender_ne⟩) l.call (hprice.blocks l hl) hw

theorem constructor_free {tokens feeds : List Address} {drs : Address} {e : StableCoinEngine}
    (h : constructor tokens feeds drs = .ok e) : e.entered = false := by
  simp only [constructor, Result.bind_ok] at h
  obtain ⟨_, -, h⟩ := h
  split at h
  · rw [Result.pure_ok] at h
    rw [← h]
  · cases h

/-- At the prices `P`, the engine's balances of accepted tokens that are standard and
distinct cover the coins twice. -/
theorem cover_run (h₀ : Deployed this w₀) (hcoin : OwnsCoin this w₀)
    (hdistinct : w₀.engine.acceptedTokens.Nodup)
    (hrun : Run (Step this standard) ⟨w₀, []⟩ events m)
    (htokens : m.world.engine.acceptedTokens = w₀.engine.acceptedTokens)
    (hstandard : ∀ t ∈ w₀.engine.acceptedTokens, standard t = true)
    (hcovered : ∀ u, Covered P m.world.engine u) :
    2 * (m.world.tokens m.world.engine.drs).totalSupply ≤
      ∑ t ∈ m.world.engine.acceptedTokens.toFinset,
        Dsc.valueInUSD (P t) ((m.world.tokens t).balances this) := by
  have hbacked := (backed_run h₀ hcoin hrun).world
  have hcustody := (custody_run h₀ hrun).world
  rw [hbacked.drs_eq]
  calc 2 * (m.world.tokens w₀.engine.drs).totalSupply
      ≤ 2 * ∑ u, m.world.engine.userToDRSminted u := Nat.mul_le_mul_left 2 hbacked.supply_le
    _ = ∑ u, 2 * m.world.engine.userToDRSminted u := Finset.mul_sum ..
    _ ≤ ∑ u, Dsc.accountValue P m.world.engine.records u :=
        Finset.sum_le_sum fun u _ => hcovered u
    _ ≤ (m.world.engine.acceptedTokens.map fun t =>
          Dsc.valueInUSD (P t) (∑ u, m.world.engine.collateralToUser u t)).sum :=
        Dsc.sum_accountValue_le P m.world.engine.records
    _ ≤ (m.world.engine.acceptedTokens.map fun t =>
          Dsc.valueInUSD (P t) ((m.world.tokens t).balances this)).sum := by
        refine List.sum_le_sum fun t ht => Dsc.valueInUSD_mono ?_
        rw [hcustody.backed t (.inr (hstandard t (htokens ▸ ht)))]
        exact Nat.le_add_right _ _
    _ = ∑ t ∈ m.world.engine.acceptedTokens.toFinset,
          Dsc.valueInUSD (P t) ((m.world.tokens t).balances this) :=
        (List.sum_toFinset _ (htokens ▸ hdistinct)).symm

/-- In every state of every run at fixed prices of an engine whose accepted tokens are
distinct, those in which tokens of unknown code have control included: all accounts but
one at most hold twice the recorded debt, and when no call waits all do. If the accepted
tokens are standard, all do in every state, and what the engine holds of each of them
is together worth twice the coins in existence. -/
theorem overcollateralised_waiting (h₀ : Deployed this w₀) (hcoin : OwnsCoin this w₀)
    (hdistinct : w₀.engine.acceptedTokens.Nodup) (hprice : FixedPrices P this w₀ events)
    (hrun : Run (Step this standard) ⟨w₀, []⟩ events m) :
    m.world.engine.acceptedTokens.Nodup ∧
      (∃ x, ∀ u, u ≠ x → Covered P m.world.engine u) ∧
      (m.stack = [] → ∀ u, Covered P m.world.engine u) ∧
      ((∀ t ∈ w₀.engine.acceptedTokens, standard t = true) →
        (∀ u, Covered P m.world.engine u) ∧
        2 * (m.world.tokens m.world.engine.drs).totalSupply ≤
          ∑ t ∈ m.world.engine.acceptedTokens.toFinset,
            Dsc.valueInUSD (P t) ((m.world.tokens t).balances this)) := by
  have hsteady := steady_run h₀ hprice hrun
  have htokens := hsteady.world.tokens
  refine ⟨htokens ▸ hdistinct, hsteady.world.others, fun hidle => ?_, fun hstandard => ?_⟩
  · obtain ⟨world, stack⟩ := m
    subst hidle
    have hheld : Held w₀ world := hsteady.chain
    obtain ⟨tokens, feeds, hbuilt⟩ := h₀.built
    exact hsteady.world.everyone (.inl (hheld.entered.trans (constructor_free hbuilt)))
  · have hall := hsteady.world.everyone (.inr hstandard)
    exact ⟨hall, cover_run h₀ hcoin hdistinct hrun htokens hstandard hall⟩

end Runs

/-- The run of `supply_backed_waiting` is at two thousand dollars throughout. -/
theorem borrowEvents_fixed : FixedPrices (fun _ => 2000 * 10 ^ 8) 1 sampleWorld borrowEvents := by
  refine ⟨fun t ht p hp => ?_, fun l hl env henv => ?_⟩
  · cases hp
  · simp only [borrowEvents, List.mem_cons, Event.call.injEq, List.not_mem_nil, or_false] at hl
    rcases hl with rfl | rfl | rfl | rfl | rfl | rfl <;> cases henv
    intro t ht p hp
    rw [List.mem_singleton.mp ht] at hp
    exact (Except.ok.inj hp).symm

/-- While the token at `9` has control, the engine holds two thousand dollars for
nine hundred coins. -/
theorem overcollateralised_waiting_borrower :
    ∃ m, Run (Step 1 fun t => t = 3) ⟨sampleWorld, []⟩ borrowEvents m ∧ m.stack.length = 1 ∧
      m.world.engine.userToDRSminted 8 = 9 * 10 ^ 20 ∧
      2 * (m.world.tokens m.world.engine.drs).totalSupply ≤
        ∑ t ∈ m.world.engine.acceptedTokens.toFinset,
          Dsc.valueInUSD (2000 * 10 ^ 8) ((m.world.tokens t).balances 1) := by
  have hrun : Run (Step 1 fun t => t = 3) ⟨sampleWorld, []⟩ borrowEvents _ :=
    Run.of_foldlM (fun _ _ _ h => h) (Option.some_get (by decide +kernel)).symm
  have hcover := (overcollateralised_waiting sampleWorld_deployed ⟨rfl, by decide +kernel⟩
    (List.nodup_singleton _) borrowEvents_fixed hrun).2.2.2 fun t ht => by
      rw [List.mem_singleton.mp ht]
      rfl
  exact ⟨_, hrun, by decide +kernel, by decide +kernel, hcover.2⟩

end AdvFoundry.Drs
