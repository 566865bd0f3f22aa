import AdvFoundry.Dsc.Positions

/-!
# Recorded debt and the coins in existence

`mintDSC` and `_burnDSC` change the supply of the stablecoin and the recorded
debt together. `DecentralisedStableCoin` closes `burn` to everyone but its
owner, the engine, and leaves the inherited `burnFrom` open: that is the one
call that destroys coins and no debt.

Results:
1. `supply_run`: after any run the recorded debts sum to the supply and all that
   `burnFrom` destroyed in the run.
2. `supply_eq_debt_iff`: they equal the supply exactly when no `burnFrom` of the
   run destroyed anything. `burnFrom_breaks_supply`: a run in which one does.
-/

namespace AdvFoundry.Dsc

open Function

/-- The stablecoin a call destroys without changing any debt. -/
def Call.burnedFrom (dsc : Address) : Call → Nat
  | token t op => if t = dsc then op.destroyed else 0
  | _ => 0

/-- The engine owns the coin, and the recorded debts sum to the supply and `n`
more. -/
structure Indebted (this dsc : Address) (w : World) (n : Nat) : Prop where
  dsc_eq : w.engine.dsc = dsc
  owner : w.dscOwner = this
  debt : ∑ u, w.engine.dscMinted u = (w.tokens dsc).totalSupply + n

namespace SupplyLemmas

variable {c : Ctx} {w w' w₀ : World} {this dsc token : Address} {tk : ERC20} {n : Nat}

/-- A transfer leaves every supply as it was. -/
theorem supply_setToken (htokens : w₀.tokens = w.tokens)
    (htk : tk.totalSupply = (w.tokens token).totalSupply) :
    ((w₀.setToken token tk).tokens dsc).totalSupply = (w.tokens dsc).totalSupply := by
  by_cases ht : dsc = token
  · subst ht
    simpa using htk
  · simp [ht, htokens]

/-- A call into a token that changes no debt, seen at the supply of the coin. -/
theorem indebted_setToken {burned : Nat} (hw : Indebted this dsc w n)
    (htk : tk.totalSupply + burned = (w.tokens token).totalSupply) :
    Indebted this dsc (w.setToken token tk) (n + if token = dsc then burned else 0) := by
  refine ⟨hw.dsc_eq, hw.owner, ?_⟩
  have hdebt := hw.debt
  by_cases ht : token = dsc
  · subst ht
    simp only [World.setToken_engine, World.setToken_tokens, update_self, if_true]
    omega
  · simpa [ht, Ne.symm ht] using hdebt

/-- A call into another token. -/
theorem indebted_setToken_of_ne (hw : Indebted this dsc w n) (hne : dsc ≠ token) :
    Indebted this dsc (w.setToken token tk) n := by
  refine ⟨hw.dsc_eq, hw.owner, ?_⟩
  rw [World.setToken_tokens, update_of_ne hne]
  exact hw.debt

/-- Every move of an engine call changes debt and supply alike. -/
theorem indebted_move (h : Move c w w') (hw : Indebted c.this dsc w n) :
    Indebted c.this dsc w' n := by
  have hdebt := hw.debt
  have hdsc := hw.dsc_eq
  cases h with
  | @deposit token amount hfunds _ =>
    refine ⟨hw.dsc_eq, hw.owner, ?_⟩
    rw [depositedWorld, supply_setToken rfl (by simp)]
    exact hdebt
  | @mint amount hsupply _ =>
    have hsum := sum_update_add w.engine.dscMinted c.sender (w.engine.dscMinted c.sender + amount)
    refine ⟨hw.dsc_eq, hw.owner, ?_⟩
    subst hdsc
    simp only [mintedWorld, World.setToken_engine, World.setMinted_engine, World.setToken_tokens,
      update_self, ERC20.issue_totalSupply]
    omega
  | @burn debtor amount hfunds hcan =>
    have hsum := sum_update_add w.engine.dscMinted debtor (w.engine.dscMinted debtor - amount)
    have howed := hcan.debt
    have hexist := Nat.le_trans hfunds (ERC20.balance_le_supply _ c.sender)
    refine ⟨hw.dsc_eq, hw.owner, ?_⟩
    subst hdsc
    simp only [burnedWorld, World.setToken_engine, World.setMinted_engine, World.setToken_tokens,
      update_self, ERC20.destroy_totalSupply, ERC20.spend_totalSupply] at hexist ⊢
    omega
  | @reedem src token amount hheld _ =>
    refine ⟨hw.dsc_eq, hw.owner, ?_⟩
    rw [reedemedWorld, supply_setToken rfl (by simp)]
    exact hdebt

end SupplyLemmas

open SupplyLemmas

/-! ## 1. Every run -/

/-- One transaction: the coin's supply functions are closed to everyone but the
engine, and of the inherited functions only `burnFrom` changes the supply. -/
theorem indebted_step {this dsc : Address} {w w' : World} {m : Msg} {n : Nat}
    (h : Step this w m w') (hw : Indebted this dsc w n) :
    Indebted this dsc w' (n + m.call.burnedFrom dsc) := by
  obtain ⟨hne, h⟩ := h
  rcases m with ⟨sender, env, call⟩
  cases call with
  | engine op =>
    exact engine_invariant (I := fun w => Indebted this dsc w n)
      (fun w w' hmove hdebt => indebted_move hmove hdebt) h hw
  | token t op =>
    obtain ⟨tk, htk, rfl⟩ := callToken_ok.mp h
    exact indebted_setToken hw (ERC20.supply_of_exec htk)
  | coin op =>
    -- the coin's own functions are open to the engine only, which is not the sender
    obtain ⟨d, hd, rfl⟩ := callCoin_ok.mp h
    exact absurd ((CoinOp.exec_owner hd).symm.trans hw.owner) hne
  | issue t a v =>
    simp only [Call.exec, Tx.bind_ok, notCoin_ok, callToken_ok] at h
    obtain ⟨_, w, ⟨hcoin, rfl⟩, _, -, rfl⟩ := h
    exact indebted_setToken_of_ne hw (hw.dsc_eq ▸ Ne.symm hcoin)
  | retire t v =>
    simp only [Call.exec, Tx.bind_ok, notCoin_ok, callToken_ok] at h
    obtain ⟨_, w, ⟨hcoin, rfl⟩, _, -, rfl⟩ := h
    exact indebted_setToken_of_ne hw (hw.dsc_eq ▸ Ne.symm hcoin)

/-- The coin was handed to the engine before any of it existed. -/
structure OwnsCoin (this : Address) (w : World) : Prop where
  owner : w.dscOwner = this
  no_supply : (w.tokens w.engine.dsc).totalSupply = 0

theorem supply_run {this : Address} {w₀ w : World} {msgs : List Msg} (h₀ : Deployed this w₀)
    (hcoin : OwnsCoin this w₀) (hrun : Run (Step this) w₀ msgs w) :
    Indebted this w₀.engine.dsc w (msgs.map fun m => m.call.burnedFrom w₀.engine.dsc).sum := by
  obtain ⟨tokens, feeds, hbuilt⟩ := h₀.built
  obtain ⟨-, hminted, -⟩ := constructor_ok hbuilt
  have hstart : Indebted this w₀.engine.dsc w₀ 0 :=
    ⟨rfl, hcoin.owner, by simp [hminted, hcoin.no_supply]⟩
  have hend := Run.accounting (I := Indebted this w₀.engine.dsc) (C := fun _ => True)
    (fun _ _ _ _ _ hI hst => indebted_step hst hI) hrun (fun _ _ => trivial) hstart
  simpa using hend

/-! ## 2. When the two sides agree -/

/-- After a run, the supply of the stablecoin equals the recorded debt exactly
when no `burnFrom` of the run destroyed any stablecoin. -/
theorem supply_eq_debt_iff {this : Address} {w₀ w : World} {msgs : List Msg}
    (h₀ : Deployed this w₀) (hcoin : OwnsCoin this w₀) (hrun : Run (Step this) w₀ msgs w) :
    (w.tokens w.engine.dsc).totalSupply = ∑ u, w.engine.dscMinted u ↔
      ∀ m ∈ msgs, m.call.burnedFrom w₀.engine.dsc = 0 := by
  have hdebt := supply_run h₀ hcoin hrun
  rw [hdebt.dsc_eq, hdebt.debt]
  simp [List.sum_eq_zero_iff]

/-- The borrower opens a position and approves the account `6`, which destroys
one of the coins. -/
def burnFromRun : List Msg :=
  [⟨5, sampleEnv price2000, .token 3 (.approve 1 (10 ^ 18))⟩,
   ⟨5, sampleEnv price2000, .engine (.depositCollateralAndMintDSC 3 (10 ^ 18) (10 ^ 21))⟩,
   ⟨5, sampleEnv price2000, .token 2 (.approve 6 (10 ^ 18))⟩,
   ⟨6, sampleEnv price2000, .token 2 (.burnFrom 5 (10 ^ 18))⟩]

/-- The first two messages of the run: the position is opened and nothing else. -/
theorem supply_eq_debt_opened :
    ∃ w, Run (Step 1) sampleWorld (burnFromRun.take 2) w ∧
      (w.tokens w.engine.dsc).totalSupply = ∑ u, w.engine.dscMinted u := by
  have hrun : Run (Step 1) sampleWorld (burnFromRun.take 2) _ :=
    Run.of_foldlM (fun _ _ _ => step_of_next) (Option.some_get (by decide +kernel)).symm
  exact ⟨_, hrun, (supply_eq_debt_iff sampleWorld_deployed ⟨rfl, by decide +kernel⟩ hrun).mpr
    (by decide +kernel)⟩

/-- With the `burnFrom`, the recorded debt exceeds the supply. -/
theorem burnFrom_breaks_supply :
    ¬ ∀ (this : Address) (w₀ w : World) (msgs : List Msg), Deployed this w₀ → OwnsCoin this w₀ →
      Run (Step this) w₀ msgs w →
      (w.tokens w.engine.dsc).totalSupply = ∑ u, w.engine.dscMinted u := by
  intro hall
  have hrun : Run (Step 1) sampleWorld burnFromRun _ :=
    Run.of_foldlM (fun _ _ _ => step_of_next) (Option.some_get (by decide +kernel)).symm
  have hcoin : OwnsCoin 1 sampleWorld := ⟨rfl, by decide +kernel⟩
  have hdebt := supply_run sampleWorld_deployed hcoin hrun
  have heq := hall 1 _ _ _ sampleWorld_deployed hcoin hrun
  rw [hdebt.dsc_eq, hdebt.debt] at heq
  have hsum : (burnFromRun.map fun m => m.call.burnedFrom sampleWorld.engine.dsc).sum = 10 ^ 18 := by
    decide +kernel
  omega

end AdvFoundry.Dsc
