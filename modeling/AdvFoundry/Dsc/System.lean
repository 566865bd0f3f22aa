import AdvFoundry.Dsc.Effects
import AdvFoundry.Evm.Run
import Mathlib.Logic.Relation

/-!
# The engine among its tokens

All calls that can change the engine or a token: the public functions of
`DSCEngine`, of `DecentralisedStableCoin` and of the collateral tokens, by any
account. `Step` is one such call that returned. The engine is not its sender:
the calls the engine makes are part of the engine functions.

`Move` says once what an engine call is made of: deposits, mints, burns and
redemptions, paid by and paid to the caller (`engine_moves`). Every invariant
of the system is checked against these four moves and the token calls.
-/

namespace AdvFoundry.Dsc

/-- The public functions of `DSCEngine` that write storage. -/
inductive EngineOp
  | depositCollateral (collateralAddress : Address) (amount : Nat)
  | mintDSC (amount : Nat)
  | depositCollateralAndMintDSC (collateralAddress : Address) (amount amountToBeMinted : Nat)
  | reedemCollateral (collateralAddress : Address) (amount : Nat)
  | reedemCollateralAndBurnDSC (collateralAddress : Address) (amount amountToBeBurned : Nat)
  | burnDSC (amount : Nat)
  | liquidate (badUser collateralAddress : Address) (debtToCover : Nat)

def EngineOp.exec (c : Ctx) : EngineOp → EngineTx Unit
  | depositCollateral t a => Dsc.depositCollateral c t a
  | mintDSC a => Dsc.mintDSC c a
  | depositCollateralAndMintDSC t a m => Dsc.depositCollateralAndMintDSC c t a m
  | reedemCollateral t a => Dsc.reedemCollateral c t a
  | reedemCollateralAndBurnDSC t a b => Dsc.reedemCollateralAndBurnDSC c t a b
  | burnDSC a => Dsc.burnDSC c a
  | liquidate u t d => Dsc.liquidate c u t d

/-- The public functions of `DecentralisedStableCoin` beyond those. -/
inductive CoinOp
  | mint (receiver : Address) (amount : Nat)
  | burn (amount : Nat)
  | transferOwnership (newOwner : Address)
  | renounceOwnership

def CoinOp.exec (sender : Address) : CoinOp → Tx CoinError DecentralisedStableCoin Unit
  | mint r a => do let _ ← DecentralisedStableCoin.mint sender r a
  | burn a => DecentralisedStableCoin.burn sender a
  | transferOwnership o => DecentralisedStableCoin.superOwnable (Ownable.transferOwnership sender o)
  | renounceOwnership => DecentralisedStableCoin.superOwnable (Ownable.renounceOwnership sender)

/-- Every function of `CoinOp` is `onlyOwner`. -/
theorem CoinOp.exec_owner {sender : Address} {op : CoinOp} {d d' : DecentralisedStableCoin} {u : Unit}
    (h : op.exec sender d = .ok (u, d')) : d.owner = sender := by
  cases op with
  | mint r a =>
    simp only [CoinOp.exec, Tx.bind_ok, DecentralisedStableCoin.mint_ok, Tx.pure_ok] at h
    obtain ⟨_, _, ⟨-, ho, -⟩, -⟩ := h
    exact ho
  | burn a => exact (DecentralisedStableCoin.burn_ok.mp h).1
  | transferOwnership o =>
    obtain ⟨_, ho, -⟩ := DecentralisedStableCoin.superOwnable_ok.mp h
    exact (Ownable.transferOwnership_ok.mp ho).1
  | renounceOwnership =>
    obtain ⟨_, ho, -⟩ := DecentralisedStableCoin.superOwnable_ok.mp h
    exact (Ownable.renounceOwnership_ok.mp ho).1

/-- One call to the system. `issue` and `retire` are the supply changes of the
collateral tokens: whoever may issue them, and a holder destroying its own. -/
inductive Call
  | engine (op : EngineOp)
  | token (token : Address) (op : TokenOp)
  | coin (op : CoinOp)
  | issue (token account : Address) (value : Nat)
  | retire (token : Address) (value : Nat)

/-- A token other than the stablecoin, whose supply functions are `CoinOp`'s. -/
def notCoin (token : Address) : EngineTx Unit :=
  Tx.view fun w => if token = w.engine.dsc then .error .empty else .ok ()

def Call.exec (c : Ctx) : Call → EngineTx Unit
  | engine op => op.exec c
  | token t op => callToken t (op.exec c.sender)
  | coin op => callCoin (op.exec c.sender)
  | issue t a v => do notCoin t; callToken t (ERC20._mint a v)
  | retire t v => do notCoin t; callToken t (ERC20.burn c.sender v)

/-- A transaction: who sends which call in which block. -/
structure Msg where
  sender : Address
  env : Env
  call : Call

/-- A transaction of an account other than the engine that returned. -/
def Step (this : Address) (w : World) (m : Msg) (w' : World) : Prop :=
  ∃ h : m.sender ≠ this, m.call.exec ⟨this, m.sender, m.env, h⟩ w = .ok ((), w')

/-- `Step`, as a function. -/
def Msg.next (this : Address) (w : World) (m : Msg) : Option World :=
  if h : m.sender ≠ this then
    let x := m.call.exec ⟨this, m.sender, m.env, h⟩
    if x.succeeds w then some (x.after w) else none
  else none

theorem step_of_next {this : Address} {w w' : World} {m : Msg} (h : m.next this w = some w') :
    Step this w m w' := by
  unfold Msg.next at h
  split at h
  · next hne =>
    simp only [Option.ite_none_right_eq_some, Option.some.injEq] at h
    obtain ⟨hok, rfl⟩ := h
    exact ⟨hne, Tx.ok_after hok⟩
  · cases h

/-- A world in which the engine was just constructed: nobody has a position,
and the engine, which had no code before, has approved nobody. -/
structure Deployed (this : Address) (w : World) : Prop where
  built : ∃ tokens feeds, constructor tokens feeds w.engine.dsc = .ok w.engine
  no_allowance : ∀ t spender, (w.tokens t).allowances this spender = 0

theorem constructor_ok {tokens feeds : List Address} {dsc : Address} {e : DSCEngine}
    (h : constructor tokens feeds dsc = .ok e) :
    (∀ u t, e.collateralToUser u t = 0) ∧ (∀ u, e.dscMinted u = 0) ∧ e.dsc = dsc ∧
      e.collateralTokens = tokens ∧ e.entered = false := by
  simp only [constructor, Result.bind_ok, Result.pure_ok] at h
  obtain ⟨_, -, rfl⟩ := h
  exact ⟨fun _ _ => rfl, fun _ => rfl, rfl, rfl, rfl⟩

/-! ## What an engine call is made of -/

/-- One move of an engine call by `c.sender`. Only the position a redemption or
a burn takes from may be another's, in a liquidation. -/
inductive Move (c : Ctx) : World → World → Prop
  | deposit {w : World} {token : Address} {amount : Nat} {h} :
      CanDeposit c w token amount → Move c w (depositedWorld w c.this c.sender token amount h)
  | mint {w : World} {amount : Nat} {h} :
      CanMint c w amount → Move c w (mintedWorld w c.sender amount h)
  | burn {w : World} {debtor : Address} {amount : Nat} {h} :
      CanBurn c w amount debtor c.sender →
      Move c w (burnedWorld w c.this debtor c.sender amount h)
  | reedem {w : World} {src token : Address} {amount : Nat} {h} :
      amount ≤ w.engine.collateralToUser src token →
      Move c w (reedemedWorld w c.this src c.sender token amount h)

section Moves

variable {c : Ctx} {w w' : World} {u : Unit}

theorem move_of_deposit {token : Address} {amount : Nat}
    (h : depositCollateral c token amount w = .ok (u, w')) : Move c w w' := by
  obtain ⟨hcan, _, rfl⟩ := depositCollateral_ok.mp h
  exact .deposit hcan

theorem move_of_mint {amount : Nat} (h : mintDSC c amount w = .ok (u, w')) : Move c w w' := by
  obtain ⟨hcan, _, rfl⟩ := mintDSC_ok.mp h
  exact .mint hcan

theorem move_of_burn {debtor : Address} {amount : Nat}
    (h : _burnDSC c amount debtor c.sender w = .ok (u, w')) : Move c w w' := by
  obtain ⟨hcan, _, rfl⟩ := _burnDSC_ok.mp h
  exact .burn hcan

theorem move_of_reedem {src token : Address} {amount : Nat}
    (h : _reedemCollateral c src c.sender token amount w = .ok (u, w')) : Move c w w' := by
  obtain ⟨hrec, -, -, _, rfl⟩ := _reedemCollateral_ok.mp h
  exact .reedem hrec

/-- Every engine call that returns is a sequence of moves. -/
theorem engine_moves {op : EngineOp} (h : op.exec c w = .ok (u, w')) :
    Relation.ReflTransGen (Move c) w w' := by
  cases op with
  | depositCollateral t a => exact .single (move_of_deposit h)
  | mintDSC a => exact .single (move_of_mint h)
  | depositCollateralAndMintDSC t a m =>
    obtain ⟨w₁, hd, hm⟩ := depositCollateralAndMintDSC_ok.mp h
    exact .tail (.single (move_of_deposit hd)) (move_of_mint hm)
  | reedemCollateral t a => exact .single (move_of_reedem (reedemCollateral_ok.mp h).2.2.1)
  | reedemCollateralAndBurnDSC t a b =>
    obtain ⟨w₁, hb, hr⟩ := reedemCollateralAndBurnDSC_ok.mp h
    exact .tail (.single (move_of_burn (burnDSC_ok.mp hb).2))
      (move_of_reedem (reedemCollateral_ok.mp hr).2.2.1)
  | burnDSC a => exact .single (move_of_burn (burnDSC_ok.mp h).2)
  | liquidate b t d =>
    obtain ⟨-, -, _, -, -, _, -, w₁, hb, hr, -⟩ := liquidate_ok.mp h
    exact .tail (.single (move_of_burn hb)) (move_of_reedem hr)

/-- What every move keeps, every engine call keeps. -/
theorem engine_invariant {I : World → Prop} {op : EngineOp}
    (hmove : ∀ w w', Move c w w' → I w → I w')
    (h : op.exec c w = .ok (u, w')) (hw : I w) : I w' := by
  have hmoves := engine_moves h
  clear h
  induction hmoves with
  | refl => exact hw
  | tail _ hm ih => exact hmove _ _ hm ih

/-! ## What a token call does -/

/-- A call into a token other than the coin's own supply functions. -/
theorem notCoin_ok {token : Address} :
    notCoin token w = .ok (u, w') ↔ token ≠ w.engine.dsc ∧ w' = w := by
  by_cases h : token = w.engine.dsc <;> simp [notCoin, h]

/-- A token call leaves the engine's storage alone. -/
theorem engine_eq_of_token {m : Call} (hm : ∀ op, m ≠ .engine op)
    (h : m.exec c w = .ok ((), w')) : w'.engine = w.engine := by
  cases m with
  | engine op => exact absurd rfl (hm op)
  | token t op =>
    obtain ⟨_, -, rfl⟩ := callToken_ok.mp h
    rfl
  | coin op =>
    obtain ⟨_, -, rfl⟩ := callCoin_ok.mp h
    rfl
  | issue t a v | retire t v =>
    simp only [Call.exec, Tx.bind_ok, notCoin_ok, callToken_ok] at h
    obtain ⟨_, _, ⟨-, rfl⟩, _, -, rfl⟩ := h
    rfl

end Moves

end AdvFoundry.Dsc
