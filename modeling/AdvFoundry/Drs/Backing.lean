import AdvFoundry.Drs.Custody
import AdvFoundry.Drs.Effects

/-!
# The coins in existence, while calls wait

A call of `StableCoinEngine` that hands over control has done some of its parts
and not the others. `Part` lists what a part does to the storage, and
`parts_engine` is the induction rule: what every part keeps holds whenever a call
hands over control and when it returns.

`supply_backed`: coins are minted with debt and burned with debt, each in one
part, so in every state of every run, also while a token of unknown code has
control, there are no more coins than recorded debt, and as many as long as
nobody burns coins past the engine.
-/

namespace AdvFoundry.Drs

open Function

/-! ## The parts of a call -/

/-- What a part of an engine call does to the storage: it takes or releases the
guard, writes a record of collateral, calls a standard token, mints, or burns. -/
inductive Part (c : Ctx) : World → World → Prop
  | guard (w : World) (b : Bool) : Part c w (w.setEntered b)
  | record (w : World) (user token : Address) (amount : Nat) :
      Part c w (w.setCollateral user token amount)
  | call (w : World) (query : TokenQuery) (success : Bool) (t : ERC20)
      (h : query.exec c.this (w.tokens query.token) = .ok (success, t)) :
      Part c w (w.setToken query.token t)
  | mint (w : World) (amount : Nat)
      (h : (w.tokens w.engine.drs).totalSupply + amount < uintSize) :
      Part c w (mintedWorld w c.sender amount h)
  | burn (w : World) (debtor : Address) (amount : Nat)
      (h : amount ≤ ((w.tokens w.engine.drs).spend c.sender c.this amount).balances c.sender)
      (hdebt : amount ≤ w.engine.userToDRSminted debtor) :
      Part c w (burnedWorld w c.this debtor c.sender amount h)

/-- `I` holds whenever the call hands over control, and when it returns. -/
abbrev Holds {α : Type} (I : World → Prop) (o : Outcome EngineError World TokenQuery Bool α) : Prop :=
  o.Safe I (fun _ => True) (fun _ => True) fun _ => I

namespace PartLemmas

variable {α β : Type} {c : Ctx} {w : World} {I : World → Prop} {src dst token debtor : Address}
  {amount : Nat}

theorem holds_bind {x : EngineProc α} {f : α → EngineProc β} (hx : Holds I (x w))
    (hf : ∀ a w, I w → Holds I (f a w)) : Holds I ((x >>= f) w) :=
  Proc.safe_bind _ hx hf

theorem holds_tx {x : EngineTx α} (hok : ∀ a w', x w = .ok (a, w') → I w') :
    Holds I ((Proc.tx x : EngineProc α) w) :=
  Proc.safe_tx hok fun _ _ => trivial

/-- A part that only looks. -/
theorem holds_look {x : EngineTx α} (hx : ∀ a w', x w = .ok (a, w') → w' = w) (hw : I w) :
    Holds I ((Proc.tx x : EngineProc α) w) :=
  holds_tx fun a w' h => (hx a w' h).symm ▸ hw

theorem holds_validAmount (hw : I w) : Holds I (validAmount amount w) :=
  holds_look (fun _ _ h => (Tx.revertIf_ok.mp h).2) hw

theorem holds_checkSender (hw : I w) : Holds I (checkSender c w) :=
  holds_look (fun _ _ h => (Tx.view_ok.mp h).2) hw

theorem holds_revertIf {p : Prop} [Decidable p] {e : EngineError} (hw : I w) :
    Holds I ((Proc.tx (Tx.revertIf p e) : EngineProc Unit) w) :=
  holds_look (fun _ _ h => (Tx.revertIf_ok.mp h).2) hw

theorem liquidationTerms_same {badUser : Address} {p : Nat × Nat} {w' : World}
    (h : liquidationTerms badUser token amount w = .ok (p, w')) : w' = w := by
  simp only [liquidationTerms, Tx.bind_ok, Tx.get_ok, Tx.revertIf_ok, Tx.view_ok, Tx.pure_ok] at h
  obtain ⟨_, w, ⟨rfl, rfl⟩, _, _, ⟨-, rfl⟩, _, _, ⟨-, rfl⟩, _, _, ⟨-, rfl⟩, _, _, ⟨-, rfl⟩, _, _,
    ⟨-, rfl⟩, _, _, ⟨-, rfl⟩, _, _, ⟨-, rfl⟩, -, rfl⟩ := h
  rfl

variable (hpart : ∀ w w', Part c w w' → I w → I w')
include hpart

theorem holds_guarded {body : EngineProc α} (hw : I w) (hbody : ∀ w, I w → Holds I (body w)) :
    Holds I (guarded body w) := by
  refine holds_bind (holds_tx ?_) fun _ w hw => holds_bind (hbody w hw) fun a w hw =>
    holds_bind (holds_tx ?_) fun _ w hw => Proc.safe_pure hw
  · intro _ w' h
    simp only [Tx.bind_ok, Tx.get_ok, Tx.revertIf_ok, Tx.modify_ok] at h
    obtain ⟨_, w, ⟨rfl, rfl⟩, _, _, ⟨-, rfl⟩, rfl⟩ := h
    exact hpart _ _ (.guard _ true) hw
  · intro _ w' h
    rw [Tx.modify_ok.mp h]
    exact hpart _ _ (.guard _ false) hw

theorem holds_callCollateral (query : TokenQuery) (hw : I w) :
    Holds I (callCollateral c query w) := by
  refine Proc.safe_get ?_
  split
  · refine holds_tx fun success w' h => ?_
    obtain ⟨t, ht, rfl⟩ := callToken_ok.mp h
    exact hpart _ _ (.call w query success t ht) hw
  · refine holds_bind (Proc.safe_call hw fun _ _ _ hw => hw) fun answer w hw => ?_
    cases answer with
    | some b => exact Proc.safe_pure hw
    | none => exact holds_look (fun _ _ h => (Tx.view_ok.mp h).2) hw

theorem holds_deposit (hw : I w) : Holds I (_depositCollateral c token amount w) := by
  refine holds_guarded hpart hw fun w hw => holds_bind (holds_tx ?_) fun _ w hw =>
    holds_bind (holds_callCollateral hpart _ hw) fun _ w hw => holds_revertIf hw
  intro _ w' h
  simp only [Tx.tryModify_ok, Result.bind_ok, Result.pure_ok] at h
  obtain ⟨_, -, rfl⟩ := h
  exact hpart _ _ (.record w c.sender token _) hw

theorem holds_reedem (hw : I w) : Holds I (_reedemCollateral c src dst token amount w) := by
  refine holds_guarded hpart hw fun w hw => holds_bind (holds_tx ?_) fun _ w hw =>
    holds_bind (holds_callCollateral hpart _ hw) fun _ w hw => holds_revertIf hw
  intro _ w' h
  simp only [Tx.tryModify_ok, Result.bind_ok, Result.pure_ok] at h
  obtain ⟨_, -, rfl⟩ := h
  exact hpart _ _ (.record w src token _) hw

theorem holds_mint (hw : I w) : Holds I (_mint c amount w) := by
  refine Outcome.safe_of_settled SettleLemmas.settles_mint fun _ w' h => ?_
  obtain ⟨-, hfits, rfl⟩ := _mint_returned.mp h
  exact hpart _ _ (.mint w amount hfits) hw

theorem holds_burn (hw : I w) : Holds I (_burn c c.sender debtor amount w) := by
  refine Outcome.safe_of_settled SettleLemmas.settles_tx fun _ w' h => ?_
  obtain ⟨hcan, hfunds, rfl⟩ := _burn_returned.mp h
  exact hpart _ _ (.burn w debtor amount hfunds hcan.debt) hw

end PartLemmas

open PartLemmas

/-- What every part keeps, every engine call keeps while it waits and when it
returns. -/
theorem parts_engine {c : Ctx} {w : World} {I : World → Prop}
    (hpart : ∀ w w', Part c w w' → I w → I w') (op : EngineOp) (hw : I w) :
    Holds I (op.exec c w) := by
  cases op with
  | depositCollateralAndMintDRS t a m =>
    exact holds_bind (holds_deposit hpart hw) fun _ _ hw =>
      holds_bind (holds_mint hpart hw) fun _ _ hw => holds_checkSender hw
  | depositCollateral t a =>
    exact holds_bind (holds_validAmount hw) fun _ _ hw => holds_deposit hpart hw
  | mintDRS a =>
    exact holds_bind (holds_validAmount hw) fun _ _ hw =>
      holds_bind (holds_mint hpart hw) fun _ _ hw => holds_checkSender hw
  | burnAndReedemCollateral t a b =>
    exact holds_bind (holds_burn hpart hw) fun _ _ hw =>
      holds_bind (holds_reedem hpart hw) fun _ _ hw => holds_checkSender hw
  | reedemCollateral t a =>
    exact holds_bind (holds_validAmount hw) fun _ _ hw =>
      holds_bind (holds_reedem hpart hw) fun _ _ hw => holds_checkSender hw
  | burnDRS a => exact holds_bind (holds_validAmount hw) fun _ _ hw => holds_burn hpart hw
  | liquidate u t d =>
    exact holds_bind (holds_validAmount hw) fun _ _ hw =>
      holds_bind (holds_look (fun _ _ h => liquidationTerms_same h) hw) fun _ _ hw =>
        holds_bind (holds_burn hpart hw) fun _ _ hw =>
          holds_bind (holds_reedem hpart hw) fun _ _ hw =>
            holds_bind (holds_look (fun _ _ h => (Tx.view_ok.mp h).2) hw) fun _ _ hw =>
              holds_revertIf hw

/-! ## The supply of the coin -/

/-- The coins a call destroys without changing any debt. -/
def Call.burnedFrom (drs : Address) : Call → Nat
  | token t op => if t = drs then op.destroyed else 0
  | _ => 0

/-- The engine owns the coin, and there are no more coins than recorded debt, as
many if nothing is burned past the engine. -/
structure Backed (this drs : Address) (exact : Prop) (w : World) : Prop where
  drs_eq : w.engine.drs = drs
  owner : w.drsOwner = this
  supply_le : (w.tokens drs).totalSupply ≤ ∑ u, w.engine.userToDRSminted u
  supply_eq : exact → (w.tokens drs).totalSupply = ∑ u, w.engine.userToDRSminted u

namespace BackingLemmas

variable {c : Ctx} {w w' w₀ : World} {this drs token : Address} {tk : ERC20} {exact : Prop}

/-- A call of a token that destroys at most what is not debt. -/
theorem backed_setToken {burned : Nat} (hw : Backed this drs exact w)
    (htk : tk.totalSupply + burned = (w.tokens token).totalSupply)
    (hexact : exact → token = drs → burned = 0) : Backed this drs exact (w.setToken token tk) := by
  obtain ⟨hdrs, howner, hle, heq⟩ := hw
  by_cases ht : drs = token
  · subst ht
    refine ⟨hdrs, howner, ?_, fun h => ?_⟩
    · rw [World.setToken_tokens, update_self]
      show tk.totalSupply ≤ ∑ u, w.engine.userToDRSminted u
      omega
    · have hnone := hexact h rfl
      have hsame := heq h
      rw [World.setToken_tokens, update_self]
      show tk.totalSupply = ∑ u, w.engine.userToDRSminted u
      omega
  · refine ⟨hdrs, howner, ?_, ?_⟩
    · rw [World.setToken_tokens, update_of_ne ht]
      exact hle
    · rw [World.setToken_tokens, update_of_ne ht]
      exact heq

theorem query_supply {query : TokenQuery} {t t' : ERC20} {success : Bool}
    (h : query.exec c.this t = .ok (success, t')) : t'.totalSupply = t.totalSupply := by
  cases query with
  | transfer _ dst amount =>
    obtain ⟨-, -, -, _, rfl⟩ := ERC20.transfer_ok.mp h
    exact ERC20.move_totalSupply
  | transferFrom _ src dst amount =>
    obtain ⟨-, -, -, -, _, rfl⟩ := ERC20.transferFrom_ok.mp h
    rw [ERC20.move_totalSupply, ERC20.spend_totalSupply]

/-- Debt and coins are changed by the same part, alike. -/
theorem backed_part (h : Part c w w') (hw : Backed c.this drs exact w) :
    Backed c.this drs exact w' := by
  cases h with
  | guard b => exact ⟨hw.drs_eq, hw.owner, hw.supply_le, hw.supply_eq⟩
  | record user token amount => exact ⟨hw.drs_eq, hw.owner, hw.supply_le, hw.supply_eq⟩
  | call query success t h =>
    have hsupply : t.totalSupply + 0 = (w.tokens query.token).totalSupply := query_supply h
    exact backed_setToken hw hsupply fun _ _ => rfl
  | mint amount hfits =>
    obtain ⟨rfl, howner, hle, heq⟩ := hw
    have hsum := sum_update_add w.engine.userToDRSminted c.sender
      (w.engine.userToDRSminted c.sender + amount)
    refine ⟨rfl, howner, ?_, fun h => ?_⟩
    · simp only [mintedWorld, World.setToken_engine, World.setMinted_engine, World.setToken_tokens,
        update_self, ERC20.issue_totalSupply]
      omega
    · have hsame := heq h
      simp only [mintedWorld, World.setToken_engine, World.setMinted_engine, World.setToken_tokens,
        update_self, ERC20.issue_totalSupply]
      omega
  | burn debtor amount hfunds hdebt =>
    obtain ⟨rfl, howner, hle, heq⟩ := hw
    have hsum := sum_update_add w.engine.userToDRSminted debtor
      (w.engine.userToDRSminted debtor - amount)
    have hexist := Nat.le_trans hfunds (ERC20.balance_le_supply _ c.sender)
    refine ⟨rfl, howner, ?_, fun h => ?_⟩
    · simp only [burnedWorld, World.setToken_engine, World.setMinted_engine, World.setToken_tokens,
        update_self, ERC20.destroy_totalSupply, ERC20.spend_totalSupply] at hexist ⊢
      omega
    · have hsame := heq h
      simp only [burnedWorld, World.setToken_engine, World.setMinted_engine, World.setToken_tokens,
        update_self, ERC20.destroy_totalSupply, ERC20.spend_totalSupply] at hexist ⊢
      omega

end BackingLemmas

open BackingLemmas PartLemmas

/-- Every call, of the engine or past it: the coin's supply functions are open to
the engine only, which is not the sender. -/
theorem backed_call {c : Ctx} {w : World} {drs : Address} {exact : Prop} (call : Call)
    (hexact : exact → call.burnedFrom drs = 0) (hw : Backed c.this drs exact w) :
    Holds (Backed c.this drs exact) (call.exec c w) := by
  cases call with
  | engine op => exact parts_engine (fun _ _ => backed_part) op hw
  | token t op =>
    refine holds_tx fun _ w' h => ?_
    simp only [Tx.bind_ok, userCall_ok, noteSent_ok] at h
    obtain ⟨_, _, ⟨tk, htk, rfl⟩, rfl⟩ := h
    have hbacked := backed_setToken hw (ERC20.supply_of_exec htk) fun h ht => by
      simpa [Call.burnedFrom, ht] using hexact h
    exact ⟨hbacked.drs_eq, hbacked.owner, hbacked.supply_le, hbacked.supply_eq⟩
  | coin op =>
    refine holds_tx fun _ w' h => ?_
    simp only [Tx.bind_ok, callCoin_ok] at h
    obtain ⟨_, _, ⟨d, hd, -⟩, -⟩ := h
    have howner : w.coin.owner = c.sender := by
      cases op with
      | mint r a =>
        simp only [CoinOp.exec, Tx.bind_ok, StableCoin.mint_ok] at hd
        obtain ⟨_, _, ⟨-, ho, -⟩, -⟩ := hd
        exact ho
      | burn a => exact (StableCoin.burn_ok.mp hd).1
      | transferOwnership o =>
        obtain ⟨_, ho, -⟩ := StableCoin.superOwnable_ok.mp hd
        exact (Ownable.transferOwnership_ok.mp ho).1
      | renounceOwnership =>
        obtain ⟨_, ho, -⟩ := StableCoin.superOwnable_ok.mp hd
        exact (Ownable.renounceOwnership_ok.mp ho).1
    exact absurd (howner.symm.trans hw.owner) c.sender_ne
  | issue t a v =>
    refine holds_tx fun _ w' h => ?_
    simp only [Tx.bind_ok, notCoin_ok, userCall_ok, noteSent_ok] at h
    obtain ⟨_, w, ⟨hcoin, rfl⟩, _, _, ⟨tk, -, rfl⟩, rfl⟩ := h
    have hne : drs ≠ t := hw.drs_eq ▸ Ne.symm hcoin
    refine ⟨hw.drs_eq, hw.owner, ?_, ?_⟩ <;> simp only [World.setToken_tokens, update_of_ne hne]
    · exact hw.supply_le
    · exact hw.supply_eq
  | retire t v =>
    refine holds_tx fun _ w' h => ?_
    simp only [Tx.bind_ok, notCoin_ok, userCall_ok] at h
    obtain ⟨_, w, ⟨hcoin, rfl⟩, tk, -, rfl⟩ := h
    have hne : drs ≠ t := hw.drs_eq ▸ Ne.symm hcoin
    refine ⟨hw.drs_eq, hw.owner, ?_, ?_⟩ <;> simp only [World.setToken_tokens, update_of_ne hne]
    · exact hw.supply_le
    · exact hw.supply_eq
  | block env =>
    refine holds_tx (x := Tx.modify fun w => { w with env := env }) fun _ w' h => ?_
    rw [Tx.modify_ok.mp h]
    exact ⟨hw.drs_eq, hw.owner, hw.supply_le, hw.supply_eq⟩

/-- No coin of the run is burned past the engine. -/
def NothingBurned (this drs : Address) (events : List (Event (Msg this) Bool)) : Prop :=
  ∀ l : Msg this, .call l ∈ events → l.call.burnedFrom drs = 0

/-- The coin is new, and the engine owns it. -/
structure OwnsCoin (this : Address) (w : World) : Prop where
  owner : w.drsOwner = this
  no_supply : (w.tokens w.engine.drs).totalSupply = 0

theorem backed_run {this : Address} {standard : Address → Bool} {w₀ : World} {m : EngineMachine}
    {events : List (Event (Msg this) Bool)} (h₀ : Deployed this w₀) (hcoin : OwnsCoin this w₀)
    (hrun : Run (Step this standard) ⟨w₀, []⟩ events m) :
    m.Sound (Backed this w₀.engine.drs (NothingBurned this w₀.engine.drs events))
      (fun _ => True) fun _ => True := by
  obtain ⟨tokens, feeds, hbuilt⟩ := h₀.built
  obtain ⟨-, hminted⟩ := constructor_ok hbuilt
  have hnone : (w₀.tokens w₀.engine.drs).totalSupply = ∑ u, w₀.engine.userToDRSminted u := by
    rw [hcoin.no_supply, Finset.sum_eq_zero fun u _ => hminted u]
  refine Machine.sound_run_of (fun l hl w hw => ?_) hrun (fun ev _ => ?_)
    (Machine.sound_idle ⟨rfl, hcoin.owner, hnone.le, fun _ => hnone⟩)
  · exact backed_call (c := ⟨this, l.sender, standard, l.sender_ne⟩) l.call (fun h => h l hl) hw
  · cases ev <;> trivial

/-- In every state of every run with a new coin that the engine owns, those in the
middle of a call included, there are no more coins than recorded debt, and exactly as
many if nobody burned coins past the engine. -/
theorem supply_backed {this : Address} {standard : Address → Bool} {w₀ : World} {m : EngineMachine}
    {events : List (Event (Msg this) Bool)} (h₀ : Deployed this w₀) (hcoin : OwnsCoin this w₀)
    (hrun : Run (Step this standard) ⟨w₀, []⟩ events m) :
    (m.world.tokens m.world.engine.drs).totalSupply ≤ ∑ u, m.world.engine.userToDRSminted u ∧
      (NothingBurned this w₀.engine.drs events →
        (m.world.tokens m.world.engine.drs).totalSupply = ∑ u, m.world.engine.userToDRSminted u) := by
  have hbacked := (backed_run h₀ hcoin hrun).world
  rw [hbacked.drs_eq]
  exact ⟨hbacked.supply_le, hbacked.supply_eq⟩

/-! ### Burning while a token has control

The account `8` borrows a thousand coins at two thousand dollars, deposits the
token at `9`, and burns a hundred coins before that token answers. -/

theorem depositor_ne : (8 : Address) ≠ 1 := by decide

def borrowEvents : List (Event (Msg 1) Bool) :=
  [.call ⟨8, depositor_ne, .block (Dsc.sampleEnv Dsc.price2000)⟩,
   .call ⟨8, depositor_ne, .token 3 (.approve 1 (10 ^ 18))⟩,
   .call ⟨8, depositor_ne, .engine (.depositCollateralAndMintDRS 3 (10 ^ 18) (10 ^ 21))⟩,
   .call ⟨8, depositor_ne, .engine (.depositCollateral 9 (10 ^ 18))⟩,
   .call ⟨8, depositor_ne, .token 2 (.approve 1 (10 ^ 20))⟩,
   .call ⟨8, depositor_ne, .engine (.burnDRS (10 ^ 20))⟩]

theorem borrowEvents_burn_nothing : NothingBurned 1 2 borrowEvents := by
  intro l hl
  simp only [borrowEvents, List.mem_cons, Event.call.injEq, List.not_mem_nil, or_false] at hl
  rcases hl with rfl | rfl | rfl | rfl | rfl | rfl <;> rfl

theorem supply_backed_waiting :
    ∃ m, Run (Step 1 fun t => t = 3) ⟨sampleWorld, []⟩ borrowEvents m ∧ m.stack.length = 1 ∧
      (m.world.tokens 2).totalSupply = 9 * 10 ^ 20 ∧
      (m.world.tokens m.world.engine.drs).totalSupply = ∑ u, m.world.engine.userToDRSminted u := by
  have hrun : Run (Step 1 fun t => t = 3) ⟨sampleWorld, []⟩ borrowEvents _ :=
    Run.of_foldlM (fun _ _ _ h => h) (Option.some_get (by decide +kernel)).symm
  exact ⟨_, hrun, by decide +kernel, by decide +kernel,
    (supply_backed sampleWorld_deployed ⟨rfl, by decide +kernel⟩ hrun).2 borrowEvents_burn_nothing⟩

end AdvFoundry.Drs
