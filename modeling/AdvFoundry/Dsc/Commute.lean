import AdvFoundry.Dsc.Custody
import AdvFoundry.Dsc.Frame

/-!
# Calls of different users commute

An ordinary call, one that does not liquidate, reads and writes the *view* of
its sender: the records and the wallet of the sender and what no call writes.
Beyond its view it needs two things of the rest of the world. A redemption needs
the engine to hold the tokens, which custody gives, and a mint needs room in the
supply of the stablecoin.

So two worlds with the same view of the sender take a call to worlds with the
same view (`view_after`), and a call leaves the view of everyone else alone
(`view_left`). The views of all users and custody make up the whole world
(`world_eq_of_views`), and `operations_commute` follows.
-/

namespace AdvFoundry.Dsc

open Function

/-- The functions that only touch the position of their sender. -/
def EngineOp.ordinary : EngineOp → Bool
  | liquidate _ _ _ => false
  | _ => true

/-- A mint that passes its checks does not overflow the supply of the coin. -/
def MintFits (c : Ctx) (w : World) (amount : Nat) : Prop :=
  CanMint c w amount → (w.tokens w.engine.dsc).totalSupply + amount < uintSize

/-- The call does not overflow the supply of the coin. -/
def EngineOp.HasRoom (c : Ctx) (w : World) : EngineOp → Prop
  | mintDSC a => MintFits c w a
  | depositCollateralAndMintDSC t a m =>
      ∀ w₁, Dsc.depositCollateral c t a w = .ok ((), w₁) → MintFits c w₁ m
  | _ => True

namespace CommuteLemmas

open PositionLemmas FrameLemmas CustodyLemmas

/-- What an ordinary call of `u` depends on and changes. -/
structure SameView (w w' : World) (u : Address) : Prop where
  config : SameConfig w.engine w'.engine
  entered : w'.engine.entered = w.engine.entered
  owner : w'.dscOwner = w.dscOwner
  record : SameRecord w.engine w'.engine u
  wallet : SameWallet w w' u

section View

variable {w w' w₁ w₂ : World} {u : Address}

theorem SameView.refl (w : World) (u : Address) : SameView w w u :=
  ⟨⟨rfl, rfl, rfl⟩, rfl, rfl, ⟨fun _ => rfl, rfl⟩, fun _ => ⟨rfl, rfl⟩⟩

theorem SameView.symm (h : SameView w w' u) : SameView w' w u where
  config := ⟨h.config.feeds.symm, h.config.tokens.symm, h.config.dsc.symm⟩
  entered := h.entered.symm
  owner := h.owner.symm
  record := ⟨fun t => (h.record.1 t).symm, h.record.2.symm⟩
  wallet := fun t => ⟨(h.wallet t).1.symm, (h.wallet t).2.symm⟩

theorem SameView.trans (h : SameView w w₁ u) (h' : SameView w₁ w₂ u) : SameView w w₂ u where
  config := h.config.trans h'.config
  entered := h'.entered.trans h.entered
  owner := h'.owner.trans h.owner
  record := h.record.trans h'.record
  wallet := fun t => ⟨(h'.wallet t).1.trans (h.wallet t).1, (h'.wallet t).2.trans (h.wallet t).2⟩

/-- The health check reads the configuration and the records of its user. -/
theorem check_congr {env : Env} {e e' : DSCEngine} (hconfig : SameConfig e e')
    (hrecord : SameRecord e e' u) :
    _checkHealthFactorAndRevert env e' u = _checkHealthFactorAndRevert env e u := by
  simp only [_checkHealthFactorAndRevert, getHealthFactor, _getAccountInformation,
    getAccountTotalCollateralInUSD, getValueInUSD, hconfig.feeds, hconfig.tokens, hrecord.1,
    hrecord.2]

theorem SameView.canSpend {t spender : Address} {amount : Nat} (h : SameView w w' u)
    (hs : (w.tokens t).CanSpend u spender amount) : (w'.tokens t).CanSpend u spender amount := by
  intro hfinite
  rw [(h.wallet t).2] at hfinite ⊢
  exact hs hfinite

/-- The two worlds with one token written: the view agrees on the rest. -/
theorem SameView.setToken {token token' : Address} {tk tk' : ERC20} (h : SameView w w' u)
    (htoken : token' = token) (hb : tk'.balances u = tk.balances u)
    (ha : tk'.allowances u = tk.allowances u) :
    SameView (w.setToken token tk) (w'.setToken token' tk') u := by
  subst htoken
  refine ⟨h.config, h.entered, h.owner, h.record, fun t => ?_⟩
  by_cases ht : t = token'
  · subst ht
    simp [hb, ha]
  · simpa [ht] using h.wallet t

/-- The wallet of `u` at the coin. -/
theorem SameView.coin (h : SameView w w' u) :
    (w'.tokens w'.engine.dsc).balances u = (w.tokens w.engine.dsc).balances u ∧
      (w'.tokens w'.engine.dsc).allowances u = (w.tokens w.engine.dsc).allowances u := by
  rw [h.config.dsc]
  exact h.wallet w.engine.dsc

theorem SameView.setMinted (h : SameView w w' u) (amount : Nat) :
    SameView (w.setMinted u amount) (w'.setMinted u amount) u :=
  ⟨⟨h.config.feeds, h.config.tokens, h.config.dsc⟩, h.entered, h.owner,
    ⟨h.record.1, by simp⟩, h.wallet⟩

theorem SameView.setCollateral {token : Address} {amount : Nat} (h : SameView w w' u) :
    SameView (w.setCollateral u token amount) (w'.setCollateral u token amount) u := by
  refine ⟨⟨h.config.feeds, h.config.tokens, h.config.dsc⟩, h.entered, h.owner, ⟨fun t => ?_, h.record.2⟩,
    h.wallet⟩
  by_cases ht : t = token
  · subst ht
    simp
  · simpa [ht] using h.record.1 t

end View

section Moves

variable {c : Ctx} {w₁ w₂ w₁' : World} {x : Unit} {token : Address} {amount : Nat}

theorem view_deposit (hv : SameView w₁ w₂ c.sender)
    (h : depositCollateral c token amount w₁ = .ok (x, w₁')) :
    ∃ w₂', depositCollateral c token amount w₂ = .ok ((), w₂') ∧ SameView w₁' w₂' c.sender := by
  obtain ⟨hcan, hfunds, rfl⟩ := depositCollateral_ok.mp h
  have hrecord := hv.record.1 token
  have hfunds' : amount ≤ ((w₂.tokens token).spend c.sender c.this amount).balances c.sender := by
    rw [ERC20.spend_balances] at hfunds ⊢
    rwa [(hv.wallet token).1]
  have hcan' : CanDeposit c w₂ token amount :=
    { pos := hcan.pos
      allowed := by rw [hv.config.feeds]; exact hcan.allowed
      free := hv.entered.trans hcan.free
      fits := by rw [hrecord]; exact hcan.fits
      approved := hv.canSpend hcan.approved
      sender_ne := hcan.sender_ne
      this_ne := hcan.this_ne }
  refine ⟨_, depositCollateral_ok.mpr ⟨hcan', hfunds', rfl⟩, ?_⟩
  rw [depositedWorld, depositedWorld, hrecord]
  refine SameView.setToken hv.setCollateral rfl ?_
    (ERC20.spend_allowances_congr (hv.wallet token).2)
  simp [credit_of_ne c.sender_ne, (hv.wallet token).1]

theorem view_mint (hv : SameView w₁ w₂ c.sender) (hfits : MintFits c w₂ amount)
    (h : mintDSC c amount w₁ = .ok (x, w₁')) :
    ∃ w₂', mintDSC c amount w₂ = .ok ((), w₂') ∧ SameView w₁' w₂' c.sender := by
  obtain ⟨hcan, _, rfl⟩ := mintDSC_ok.mp h
  have hdebt := hv.record.2
  have hcan' : CanMint c w₂ amount :=
    { pos := hcan.pos
      fits := by rw [hdebt]; exact hcan.fits
      healthy := by
        have hafter := hv.setMinted (w₁.engine.dscMinted c.sender + amount)
        rw [hdebt, check_congr hafter.config hafter.record]
        exact hcan.healthy
      owner := hv.owner.trans hcan.owner
      sender_ne := hcan.sender_ne
      this_ne := hcan.this_ne }
  refine ⟨_, mintDSC_ok.mpr ⟨hcan', hfits hcan', rfl⟩, ?_⟩
  rw [mintedWorld, mintedWorld, hdebt]
  refine SameView.setToken (hv.setMinted _) hv.config.dsc ?_ hv.coin.2
  simp [hv.coin.1]

theorem view_burn (hv : SameView w₁ w₂ c.sender) (h : burnDSC c amount w₁ = .ok (x, w₁')) :
    ∃ w₂', burnDSC c amount w₂ = .ok ((), w₂') ∧ SameView w₁' w₂' c.sender := by
  obtain ⟨hfree, hburn⟩ := burnDSC_ok.mp h
  obtain ⟨hcan, hfunds, rfl⟩ := _burnDSC_ok.mp hburn
  have hdebt := hv.record.2
  have hfunds' : amount ≤
      ((w₂.tokens w₂.engine.dsc).spend c.sender c.this amount).balances c.sender := by
    rw [ERC20.spend_balances] at hfunds ⊢
    rwa [hv.coin.1]
  have hcan' : CanBurn c w₂ amount c.sender c.sender :=
    { debt := by rw [hdebt]; exact hcan.debt
      approved := by rw [hv.config.dsc]; exact hv.canSpend hcan.approved
      payer_ne := hcan.payer_ne
      this_ne := hcan.this_ne
      owner := hv.owner.trans hcan.owner
      pos := hcan.pos }
  refine ⟨_, burnDSC_ok.mpr ⟨hv.entered.trans hfree, _burnDSC_ok.mpr ⟨hcan', hfunds', rfl⟩⟩, ?_⟩
  rw [burnedWorld, burnedWorld, hdebt]
  refine SameView.setToken (hv.setMinted _) hv.config.dsc ?_ (ERC20.spend_allowances_congr hv.coin.2)
  simp [hv.coin.1]

/-- The one move that depends on what the engine holds. -/
theorem view_reedem (hv : SameView w₁ w₂ c.sender)
    (hheld : ∑ u, w₂.engine.collateralToUser u token ≤ (w₂.tokens token).balances c.this)
    (h : reedemCollateral c token amount w₁ = .ok (x, w₁')) :
    ∃ w₂', reedemCollateral c token amount w₂ = .ok ((), w₂') ∧ SameView w₁' w₂' c.sender := by
  obtain ⟨hpos, hfree, hreedem, hcheck⟩ := reedemCollateral_ok.mp h
  obtain ⟨hrec, hthis, hsender, _, rfl⟩ := _reedemCollateral_ok.mp hreedem
  have hrecord := hv.record.1 token
  have hrec' : amount ≤ w₂.engine.collateralToUser c.sender token := by
    rw [hrecord]
    exact hrec
  have hheld' : amount ≤ (w₂.tokens token).balances c.this :=
    calc amount ≤ w₂.engine.collateralToUser c.sender token := hrec'
      _ ≤ ∑ u, w₂.engine.collateralToUser u token :=
        le_sum (fun u => w₂.engine.collateralToUser u token) c.sender
      _ ≤ (w₂.tokens token).balances c.this := hheld
  have hafter : SameView (reedemedWorld w₁ c.this c.sender c.sender token amount ‹_›)
      (reedemedWorld w₂ c.this c.sender c.sender token amount hheld') c.sender := by
    rw [reedemedWorld, reedemedWorld, hrecord]
    refine SameView.setToken hv.setCollateral rfl ?_ (hv.wallet token).2
    simp [debit_of_ne c.sender_ne, (hv.wallet token).1]
  refine ⟨_, reedemCollateral_ok.mpr ⟨hpos, hv.entered.trans hfree,
    _reedemCollateral_ok.mpr ⟨hrec', hthis, hsender, hheld', rfl⟩, ?_⟩, hafter⟩
  rw [check_congr hafter.config hafter.record]
  exact hcheck

end Moves

section Calls

variable {c : Ctx} {op : EngineOp} {w₁ w₂ w₁' : World} {x : Unit} {dsc : Address} {n : Address → Nat}

/-- A call that passes in one world passes in every world with the same view of
its sender, with the same effect on the view. -/
theorem view_exec (hop : op.ordinary = true) (hv : SameView w₁ w₂ c.sender)
    (hcust : ∀ t, Custody c.this dsc t w₂ (n t)) (hroom : op.HasRoom c w₂)
    (h : op.exec c w₁ = .ok (x, w₁')) :
    ∃ w₂', op.exec c w₂ = .ok ((), w₂') ∧ SameView w₁' w₂' c.sender := by
  cases op with
  | depositCollateral t a => exact view_deposit hv h
  | mintDSC a => exact view_mint hv hroom h
  | depositCollateralAndMintDSC t a m =>
    obtain ⟨v₁, hdeposit, hmint⟩ := depositCollateralAndMintDSC_ok.mp h
    obtain ⟨v₂, hdeposit', hv'⟩ := view_deposit hv hdeposit
    obtain ⟨w₂', hmint', hend⟩ := view_mint hv' (hroom v₂ hdeposit') hmint
    exact ⟨w₂', depositCollateralAndMintDSC_ok.mpr ⟨v₂, hdeposit', hmint'⟩, hend⟩
  | reedemCollateral t a => exact view_reedem hv (hcust t).covers h
  | reedemCollateralAndBurnDSC t a b =>
    obtain ⟨v₁, hburn, hreedem⟩ := reedemCollateralAndBurnDSC_ok.mp h
    obtain ⟨v₂, hburn', hv'⟩ := view_burn hv hburn
    -- the burn keeps custody, so the redemption after it is covered
    have hcust' := custody_move (move_of_burn (burnDSC_ok.mp hburn').2) (hcust t)
    obtain ⟨w₂', hreedem', hend⟩ := view_reedem hv' hcust'.covers hreedem
    exact ⟨w₂', reedemCollateralAndBurnDSC_ok.mpr ⟨v₂, hburn', hreedem'⟩, hend⟩
  | burnDSC a => exact view_burn hv h
  | liquidate b t d => cases hop

/-- The same for a call that may revert. -/
theorem view_after (hop : op.ordinary = true) (hv : SameView w₁ w₂ c.sender)
    (hcust₁ : ∀ t, Custody c.this dsc t w₁ (n t)) (hcust₂ : ∀ t, Custody c.this dsc t w₂ (n t))
    (hroom₁ : op.HasRoom c w₁) (hroom₂ : op.HasRoom c w₂) :
    (op.exec c).succeeds w₁ = (op.exec c).succeeds w₂ ∧
      SameView ((op.exec c).after w₁) ((op.exec c).after w₂) c.sender := by
  rcases Tx.after_cases (op.exec c) w₁ with hok | ⟨hfail, hsame⟩
  · obtain ⟨w₂', hok₂, hend⟩ := view_exec hop hv hcust₂ hroom₂ hok
    obtain ⟨hsucc₁, -⟩ := Tx.of_ok hok
    obtain ⟨hsucc₂, hafter₂⟩ := Tx.of_ok hok₂
    rw [hsucc₁, hsucc₂, hafter₂]
    exact ⟨rfl, hend⟩
  · rcases Tx.after_cases (op.exec c) w₂ with hok₂ | ⟨hfail₂, hsame₂⟩
    · obtain ⟨w₁', hok₁, -⟩ := view_exec hop hv.symm hcust₁ hroom₁ hok₂
      rw [(Tx.of_ok hok₁).1] at hfail
      cases hfail
    · rw [hfail, hfail₂, hsame, hsame₂]
      exact ⟨rfl, hv⟩

/-- The guard is free again after a call, and the coin keeps its owner. -/
theorem guard_engine (h : op.exec c w₁ = .ok (x, w₁')) :
    w₁'.engine.entered = w₁.engine.entered ∧ w₁'.dscOwner = w₁.dscOwner := by
  refine engine_invariant (I := fun w' => w'.engine.entered = w₁.engine.entered ∧
    w'.dscOwner = w₁.dscOwner) ?_ h ⟨rfl, rfl⟩
  intro w w' hmove hsame
  cases hmove <;> exact hsame

theorem custody_after {this : Address} {w : World} (hthis : c.this = this)
    (hcust : ∀ t, Custody this dsc t w (n t)) (t : Address) :
    Custody this dsc t ((op.exec c).after w) (n t) := by
  subst hthis
  rcases Tx.after_cases (op.exec c) w with hok | ⟨-, hsame⟩
  · exact engine_invariant (I := fun w => Custody c.this dsc t w (n t))
      (fun _ _ hmove => custody_move hmove) hok (hcust t)
  · rw [hsame]
    exact hcust t

/-- A call leaves the records of everyone but its sender, and the view of
everyone but its sender and the engine. -/
theorem view_left (hop : op.ordinary = true) (w : World) :
    (∀ u, u ≠ c.sender → SameRecord w.engine ((op.exec c).after w).engine u) ∧
      ∀ u, u ≠ c.sender → u ≠ c.this → SameView w ((op.exec c).after w) u := by
  rcases Tx.after_cases (op.exec c) w with hok | ⟨-, hsame⟩
  · have hrecord : ∀ u, u ≠ c.sender → SameRecord w.engine ((op.exec c).after w).engine u := by
      intro u hu
      refine record_engine hu hok ?_
      rintro t d rfl
      cases hop
    obtain ⟨hentered, howner⟩ := guard_engine hok
    exact ⟨hrecord, fun u hu hthis => ⟨config_engine hok, hentered, howner, hrecord u hu,
      wallet_engine hu hthis hok⟩⟩
  · rw [hsame]
    exact ⟨fun u _ => ⟨fun _ => rfl, rfl⟩, fun u _ _ => SameView.refl w u⟩

/-- With custody, the views of all users make up the world: the engine holds
what is recorded, it approved nobody, and the balances sum to the supply. -/
theorem world_eq_of_views {this user : Address} {w w' : World}
    (hcust : ∀ t, Custody this dsc t w (n t)) (hcust' : ∀ t, Custody this dsc t w' (n t))
    (hview : ∀ u, u ≠ this → SameView w w' u) (hengine : SameRecord w.engine w'.engine this)
    (huser : user ≠ this) : w' = w := by
  have hrecord : ∀ u, SameRecord w.engine w'.engine u := by
    intro u
    by_cases hu : u = this
    · exact hu ▸ hengine
    · exact (hview u hu).record
  have hcollateral : w'.engine.collateralToUser = w.engine.collateralToUser := by
    funext u t
    exact (hrecord u).1 t
  have hminted : w'.engine.dscMinted = w.engine.dscMinted := by
    funext u
    exact (hrecord u).2
  have htokens : w'.tokens = w.tokens := by
    funext t
    have hbalances : (w'.tokens t).balances = (w.tokens t).balances := by
      funext u
      by_cases hu : u = this
      · rw [hu, (hcust t).backed, (hcust' t).backed, hcollateral]
      · exact ((hview u hu).wallet t).1
    apply ERC20.ext hbalances
    · funext u
      by_cases hu : u = this
      · funext spender
        rw [hu, (hcust t).no_approval t spender, (hcust' t).no_approval t spender]
      · exact ((hview u hu).wallet t).2
    · rw [← (w'.tokens t).sum_balances, ← (w.tokens t).sum_balances, hbalances]
  obtain ⟨hconfig, hentered, howner, -, -⟩ := hview user huser
  rcases w with ⟨⟨feeds, collateral, minted, coin, tokens, entered⟩, erc20s, owner⟩
  rcases w' with ⟨⟨feeds', collateral', minted', coin', tokens', entered'⟩, erc20s', owner'⟩
  cases hconfig.feeds
  cases hconfig.tokens
  cases hconfig.dsc
  cases hentered
  cases howner
  cases hcollateral
  cases hminted
  cases htokens
  rfl

end Calls

section Pairs

variable {c d : Ctx} {w : World} {dsc : Address} {n : Address → Nat} {a b : EngineOp}

/-- Of two calls, the sender of the first sees the same in both orders. -/
theorem view_pair (hcust : ∀ t, Custody c.this dsc t w (n t)) (hthis : d.this = c.this)
    (hne : c.sender ≠ d.sender) (ha : a.ordinary = true) (hb : b.ordinary = true)
    (hroom : a.HasRoom c w) (hroom' : a.HasRoom c ((b.exec d).after w)) :
    (a.exec c).succeeds w = (a.exec c).succeeds ((b.exec d).after w) ∧
      SameView ((b.exec d).after ((a.exec c).after w)) ((a.exec c).after ((b.exec d).after w))
        c.sender := by
  have hengine : c.sender ≠ d.this := by
    rw [hthis]
    exact c.sender_ne
  have hfirst := (view_left (c := d) hb w).2 c.sender hne hengine
  have hsecond := (view_left (c := d) hb ((a.exec c).after w)).2 c.sender hne hengine
  obtain ⟨hsucceeds, hview⟩ := view_after ha hfirst hcust (custody_after hthis hcust) hroom hroom'
  exact ⟨hsucceeds, hsecond.symm.trans hview⟩

/-- Everyone else sees none of the two calls. -/
theorem view_others {u : Address} (ha : a.ordinary = true) (hb : b.ordinary = true)
    (hc : u ≠ c.sender) (hd : u ≠ d.sender) :
    SameRecord w.engine ((b.exec d).after ((a.exec c).after w)).engine u ∧
      (u ≠ c.this → u ≠ d.this → SameView w ((b.exec d).after ((a.exec c).after w)) u) := by
  obtain ⟨hrecord, hview⟩ := view_left (c := c) ha w
  obtain ⟨hrecord', hview'⟩ := view_left (c := d) hb ((a.exec c).after w)
  exact ⟨(hrecord u hc).trans (hrecord' u hd),
    fun hthis hthis' => (hview u hc hthis).trans (hview' u hd hthis')⟩

end Pairs

end CommuteLemmas

open CommuteLemmas

/-- From every reachable world, the ordinary calls of two users commute: whether
each of them passes does not depend on which comes first, and neither does the
world the two lead to. Each call sees its own block, the same in both orders, and
no call overflows the supply of the coin. -/
theorem operations_commute {c d : Ctx} {w₀ w : World} {msgs : List Msg} {a b : EngineOp}
    (h₀ : Deployed c.this w₀) (hrun : Run (Step c.this) w₀ msgs w) (hthis : d.this = c.this)
    (hne : c.sender ≠ d.sender) (ha : a.ordinary = true) (hb : b.ordinary = true)
    (hroom_a : a.HasRoom c w) (hroom_a' : a.HasRoom c ((b.exec d).after w))
    (hroom_b : b.HasRoom d w) (hroom_b' : b.HasRoom d ((a.exec c).after w)) :
    (a.exec c).succeeds w = (a.exec c).succeeds ((b.exec d).after w) ∧
    (b.exec d).succeeds w = (b.exec d).succeeds ((a.exec c).after w) ∧
    (b.exec d).after ((a.exec c).after w) = (a.exec c).after ((b.exec d).after w) := by
  have hcust := fun t => custody_run (t := t) h₀ hrun
  have hcust' := hcust
  rw [← hthis] at hcust'
  obtain ⟨hsucceeds_a, hview_a⟩ := view_pair hcust hthis hne ha hb hroom_a hroom_a'
  obtain ⟨hsucceeds_b, hview_b⟩ := view_pair hcust' hthis.symm hne.symm hb ha hroom_b hroom_b'
  refine ⟨hsucceeds_a, hsucceeds_b, ?_⟩
  refine world_eq_of_views (custody_after rfl (custody_after hthis hcust))
    (custody_after hthis (custody_after rfl hcust)) (fun u hu => ?_) ?_ c.sender_ne
  · -- a user is one of the two senders, or sees none of the calls
    by_cases hc : u = c.sender
    · exact hc ▸ hview_a.symm
    · by_cases hd : u = d.sender
      · exact hd ▸ hview_b
      · have hu' : u ≠ d.this := hthis ▸ hu
        have hab := (view_others (c := c) (d := d) (w := w) ha hb hc hd).2 hu hu'
        have hba := (view_others (c := d) (d := c) (w := w) hb ha hd hc).2 hu' hu
        exact hba.symm.trans hab
  · have hd : c.this ≠ d.sender := hthis ▸ d.sender_ne.symm
    have hab := (view_others (w := w) ha hb c.sender_ne.symm hd).1
    have hba := (view_others (w := w) hb ha hd c.sender_ne.symm).1
    exact ⟨fun t => (hab.1 t).trans (hba.1 t).symm, hab.2.trans hba.2.symm⟩

/-- The borrower opens a position at the limit and hands a token to the account
`6`; both approve the engine for what follows. -/
def twoUsersRun : List Msg :=
  [⟨5, sampleEnv price2000, .token 3 (.approve 1 (10 ^ 18))⟩,
   ⟨5, sampleEnv price2000, .token 2 (.approve 1 (10 ^ 20))⟩,
   ⟨5, sampleEnv price2000, .engine (.depositCollateralAndMintDSC 3 (10 ^ 18) (10 ^ 21))⟩,
   ⟨5, sampleEnv price2000, .token 3 (.transfer 6 (10 ^ 18))⟩,
   ⟨6, sampleEnv price2000, .token 3 (.approve 1 (10 ^ 18))⟩]

/-- The borrower repays and withdraws a tenth. -/
def repayTenth : EngineTx Unit :=
  (EngineOp.reedemCollateralAndBurnDSC 3 (10 ^ 17) (10 ^ 20)).exec (borrowerCtx price2000)

/-- The account `6` opens a position of its own. -/
def openSecond : EngineTx Unit :=
  (EngineOp.depositCollateralAndMintDSC 3 (10 ^ 18) (10 ^ 21)).exec (liquidatorCtx price2000)

/-- Both calls return, in either order, and lead to one world. -/
theorem operations_commute_two_users :
    ∃ w, Run (Step 1) sampleWorld twoUsersRun w ∧
      repayTenth.succeeds w = true ∧ repayTenth.succeeds (openSecond.after w) = true ∧
      openSecond.succeeds w = true ∧ openSecond.succeeds (repayTenth.after w) = true ∧
      openSecond.after (repayTenth.after w) = repayTenth.after (openSecond.after w) := by
  have hrun : Run (Step 1) sampleWorld twoUsersRun _ :=
    Run.of_foldlM (fun _ _ _ => step_of_next) (Option.some_get (by decide +kernel)).symm
  obtain ⟨hrepay, hopen, hsame⟩ := operations_commute (c := borrowerCtx price2000)
    (d := liquidatorCtx price2000) (a := .reedemCollateralAndBurnDSC 3 (10 ^ 17) (10 ^ 20))
    (b := .depositCollateralAndMintDSC 3 (10 ^ 18) (10 ^ 21)) sampleWorld_deployed hrun rfl
    (by decide) rfl rfl trivial trivial
    (fun w₁ hdeposit _ => by rw [← (Tx.of_ok hdeposit).2]; decide +kernel)
    (fun w₁ hdeposit _ => by rw [← (Tx.of_ok hdeposit).2]; decide +kernel)
  refine ⟨_, hrun, ?_, hrepay.symm.trans ?_, ?_, hopen.symm.trans ?_, hsame⟩ <;> decide +kernel

end AdvFoundry.Dsc
