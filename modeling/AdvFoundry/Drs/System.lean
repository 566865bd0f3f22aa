import AdvFoundry.Drs.Engine

/-!
# StableCoinEngine among its tokens

All calls that can change the engine or a standard token, by any account, as the
labels of a `Machine`: a token of unknown code that the engine has called may
make any of them before it answers, and so may whatever it calls in turn.
-/

namespace AdvFoundry.Drs

open Function

/-- The public functions of `StableCoinEngine` that write storage. -/
inductive EngineOp
  | depositCollateralAndMintDRS (collateralAddress : Address) (collateralAmount drsToMint : Nat)
  | depositCollateral (collateralAddress : Address) (amount : Nat)
  | mintDRS (amount : Nat)
  | burnAndReedemCollateral (collateralAddress : Address) (collateralAmount amountDRStoBurn : Nat)
  | reedemCollateral (collateralAddress : Address) (amount : Nat)
  | burnDRS (amount : Nat)
  | liquidate (badUser collateralAddress : Address) (debtToCoverDRS : Nat)

def EngineOp.exec (c : Ctx) : EngineOp → EngineProc Unit
  | depositCollateralAndMintDRS t a m => Drs.depositCollateralAndMintDRS c t a m
  | depositCollateral t a => Drs.depositCollateral c t a
  | mintDRS a => Drs.mintDRS c a
  | burnAndReedemCollateral t a b => Drs.burnAndReedemCollateral c t a b
  | reedemCollateral t a => Drs.reedemCollateral c t a
  | burnDRS a => Drs.burnDRS c a
  | liquidate u t d => Drs.liquidate c u t d

/-- The public functions of `StableCoin` beyond those of every `ERC20Burnable`. -/
inductive CoinOp
  | mint (dst : Address) (amount : Nat)
  | burn (amount : Nat)
  | transferOwnership (newOwner : Address)
  | renounceOwnership

def CoinOp.exec (sender : Address) : CoinOp → Tx CoinError StableCoin Unit
  | mint d a => do let _ ← StableCoin.mint sender d a
  | burn a => StableCoin.burn sender a
  | transferOwnership o => StableCoin.superOwnable (Ownable.transferOwnership sender o)
  | renounceOwnership => StableCoin.superOwnable (Ownable.renounceOwnership sender)

def CoinOp.sentTo (holder : Address) : CoinOp → Nat
  | mint d a => if d = holder then a else 0
  | _ => 0

/-- One call to the system. `issue` and `retire` are the supply changes of the
collateral tokens; `block` is a new block, or a new answer of a feed. -/
inductive Call
  | engine (op : EngineOp)
  | token (token : Address) (op : TokenOp)
  | coin (op : CoinOp)
  | issue (token account : Address) (value : Nat)
  | retire (token : Address) (value : Nat)
  | block (env : Env)

/-- Counts what was just sent to the engine past its functions. -/
def noteSent (token : Address) (amount : Nat) : EngineTx Unit :=
  Tx.modify fun w => { w with sent := credit w.sent token amount }

/-- A token other than the stablecoin, whose supply functions are `CoinOp`'s. -/
def notCoin (token : Address) : EngineTx Unit :=
  Tx.view fun w => if token = w.engine.drs then .error .empty else .ok ()

/-- A call of a standard token by an account. How it reverts is not the
engine's doing. -/
def userCall (token : Address) (x : Tx ERC20Error ERC20 Unit) : EngineTx Unit :=
  Tx.call (fun w => w.tokens token) (fun t w => w.setToken token t) (fun _ => .foreign) x

def Call.exec (c : Ctx) : Call → EngineProc Unit
  | engine op => op.exec c
  | token t op => .tx do
    userCall t (op.exec c.sender)
    noteSent t (op.sentTo c.this)
  | coin op => .tx do
    callCoin (op.exec c.sender)
    let w ← Tx.get
    noteSent w.engine.drs (op.sentTo c.this)
  | issue t a v => .tx do
    notCoin t
    userCall t (ERC20._mint a v)
    noteSent t (if a = c.this then v else 0)
  | retire t v => .tx do
    notCoin t
    userCall t (ERC20.burn c.sender v)
  | block env => .tx (Tx.modify fun w => { w with env := env })

/-- Who sends which call. The engine is not a sender: the calls the engine makes
are part of the engine functions. -/
structure Msg (this : Address) where
  sender : Address
  sender_ne : sender ≠ this
  call : Call

abbrev EngineMachine := Machine EngineError World TokenQuery Bool

def Msg.exec {this : Address} (standard : Address → Bool) (m : Msg this) : EngineProc Unit :=
  m.call.exec ⟨this, m.sender, standard, m.sender_ne⟩

/-- One event: a call, or the answer of a token of unknown code. -/
def Step (this : Address) (standard : Address → Bool) :
    EngineMachine → Event (Msg this) Bool → EngineMachine → Prop :=
  Machine.Step (Msg.exec standard)

/-- A world in which the engine was just constructed: nobody has a position, the
engine, which had no code before, has approved nobody, and what it already holds
was sent to it. -/
structure Deployed (this : Address) (w : World) : Prop where
  built : ∃ tokens feeds, constructor tokens feeds w.engine.drs = .ok w.engine
  no_allowance : ∀ t spender, (w.tokens t).allowances this spender = 0
  sent_before : ∀ t, w.sent t = (w.tokens t).balances this

theorem constructor_ok {tokens feeds : List Address} {drs : Address} {e : StableCoinEngine}
    (h : constructor tokens feeds drs = .ok e) :
    (∀ u t, e.collateralToUser u t = 0) ∧ (∀ u, e.userToDRSminted u = 0) := by
  simp only [constructor, Result.bind_ok] at h
  obtain ⟨_, -, h⟩ := h
  split at h
  · simp only [Result.pure_ok] at h
    subst h
    exact ⟨fun _ _ => rfl, fun _ => rfl⟩
  · cases h

/-! ## Reading a world after a write -/

namespace World

variable {w : World} {user token : Address} {amount : Nat} {t : ERC20} {b : Bool}

@[simp] theorem setMinted_tokens : (w.setMinted user amount).tokens = w.tokens := rfl
@[simp] theorem setMinted_engine : (w.setMinted user amount).engine =
    { w.engine with userToDRSminted := update w.engine.userToDRSminted user amount } := rfl

@[simp] theorem setCollateral_tokens : (w.setCollateral user token amount).tokens = w.tokens := rfl
@[simp] theorem setCollateral_sent : (w.setCollateral user token amount).sent = w.sent := rfl
@[simp] theorem setCollateral_engine : (w.setCollateral user token amount).engine =
    { w.engine with
      collateralToUser := update w.engine.collateralToUser user
        (update (w.engine.collateralToUser user) token amount) } := rfl

@[simp] theorem setToken_tokens : (w.setToken token t).tokens = update w.tokens token t := rfl
@[simp] theorem setToken_sent : (w.setToken token t).sent = w.sent := rfl
@[simp] theorem setToken_engine : (w.setToken token t).engine = w.engine := rfl

@[simp] theorem setCoin_tokens {d : StableCoin} :
    (w.setCoin d).tokens = update w.tokens w.engine.drs d.erc20 := rfl
@[simp] theorem setCoin_engine {d : StableCoin} : (w.setCoin d).engine = w.engine := rfl

@[simp] theorem coin_erc20 : w.coin.erc20 = w.tokens w.engine.drs := rfl

theorem setToken_setToken {t' : ERC20} :
    (w.setToken token t).setToken token t' = w.setToken token t' := by
  simp [setToken]

end World

section Calls

variable {w w' : World} {token : Address} {u : Unit}

theorem callToken_ok {α : Type} {x : Tx ERC20Error ERC20 α} {a : α} :
    callToken token x w = .ok (a, w') ↔
      ∃ t, x (w.tokens token) = .ok (a, t) ∧ w' = w.setToken token t := by
  simp [callToken]

theorem userCall_ok {x : Tx ERC20Error ERC20 Unit} :
    userCall token x w = .ok (u, w') ↔
      ∃ t, x (w.tokens token) = .ok (u, t) ∧ w' = w.setToken token t := by
  simp [userCall]

theorem callCoin_ok {α : Type} {x : Tx CoinError StableCoin α} {a : α} :
    callCoin x w = .ok (a, w') ↔ ∃ d, x w.coin = .ok (a, d) ∧ w' = w.setCoin d := by
  simp [callCoin]

/-- A call into the coin that leaves its owner alone is a call into a token. -/
theorem setCoin_erc20 {t : ERC20} :
    w.setCoin { w.coin with erc20 := t } = w.setToken w.engine.drs t := rfl

theorem notCoin_ok :
    notCoin token w = .ok (u, w') ↔ token ≠ w.engine.drs ∧ w' = w := by
  by_cases h : token = w.engine.drs <;> simp [notCoin, h]

theorem noteSent_ok {amount : Nat} :
    noteSent token amount w = .ok (u, w') ↔
      w' = { w with sent := credit w.sent token amount } := by
  simp [noteSent]

end Calls

end AdvFoundry.Drs
