import AdvFoundry.OpenZeppelin.Access
import AdvFoundry.OpenZeppelin.ERC20

/-!
# StableCoin

`testing/src/StableCoin.sol`, the coin `DRS`: an `ERC20Burnable` and `Ownable`
token with an `onlyOwner` `mint` and an overridden `onlyOwner` `burn`. It differs
from `DecentralisedStableCoin` in the order of the checks, in its errors, and in
testing the receiver of a mint instead of the caller.
-/

namespace AdvFoundry.Drs

/-- Storage of `StableCoin`: its base contracts' only. -/
structure StableCoin where
  erc20 : ERC20
  owner : Address

/-- The errors a call of the coin can give: its own, and its bases'. -/
inductive CoinError
  | amountCannotBeZero
  | cannotMintToAddressZero
  | burnAmountExceedsBalance
  | ownable (e : OwnableError)
  | erc20 (e : ERC20Error)
  deriving DecidableEq

namespace StableCoin

abbrev CoinTx := Tx CoinError StableCoin

/-- A function inherited from `ERC20` or `ERC20Burnable`. -/
def super {α : Type} (x : Tx ERC20Error ERC20 α) : CoinTx α :=
  Tx.call (·.erc20) (fun t c => { c with erc20 := t }) .erc20 x

/-- A function inherited from `Ownable`. -/
def superOwnable {α : Type} (x : Tx OwnableError Address α) : CoinTx α :=
  Tx.call (·.owner) (fun o c => { c with owner := o }) .ownable x

def onlyOwner (sender : Address) : CoinTx Unit :=
  superOwnable (Tx.view fun owner => Ownable.onlyOwner sender owner)

def checkZero (amount : Nat) : CoinTx Unit :=
  Tx.revertIf (amount ≤ 0) .amountCannotBeZero

def mint (sender dst : Address) (amount : Nat) : CoinTx Bool := do
  checkZero amount
  onlyOwner sender
  Tx.revertIf (dst = 0) .cannotMintToAddressZero
  super (ERC20._mint dst amount)
  pure true

def burn (sender : Address) (amount : Nat) : CoinTx Unit := do
  onlyOwner sender
  checkZero amount
  let c ← Tx.get
  let balance := c.erc20.balances sender
  Tx.revertIf (amount > balance) .burnAmountExceedsBalance
  super (ERC20.burn sender amount)

variable {c c' : StableCoin} {sender dst : Address} {amount : Nat}

theorem super_ok {α : Type} {x : Tx ERC20Error ERC20 α} {a : α} :
    super x c = .ok (a, c') ↔ ∃ t, x c.erc20 = .ok (a, t) ∧ c' = { c with erc20 := t } := by
  simp [super]

theorem superOwnable_ok {α : Type} {x : Tx OwnableError Address α} {a : α} :
    superOwnable x c = .ok (a, c') ↔ ∃ o, x c.owner = .ok (a, o) ∧ c' = { c with owner := o } := by
  simp [superOwnable]

theorem onlyOwner_ok {u : Unit} :
    onlyOwner sender c = .ok (u, c') ↔ c.owner = sender ∧ c' = c := by
  simp [onlyOwner, superOwnable_ok]

theorem checkZero_ok {u : Unit} : checkZero amount c = .ok (u, c') ↔ 0 < amount ∧ c' = c := by
  simp [checkZero, Nat.pos_iff_ne_zero]

theorem mint_ok {b : Bool} :
    mint sender dst amount c = .ok (b, c') ↔
      b = true ∧ c.owner = sender ∧ 0 < amount ∧ dst ≠ 0 ∧
        ∃ h : c.erc20.totalSupply + amount < uintSize,
          c' = { c with erc20 := c.erc20.issue dst amount h } := by
  simp only [mint, Tx.bind_ok, checkZero_ok, onlyOwner_ok, Tx.revertIf_ok, super_ok, ERC20._mint_ok,
    Tx.pure_ok]
  constructor
  · rintro ⟨_, _, ⟨ha, rfl⟩, _, _, ⟨ho, rfl⟩, _, _, ⟨ht, rfl⟩, _, _, ⟨_, ⟨-, hv, rfl⟩, rfl⟩, rfl, rfl⟩
    exact ⟨rfl, ho, ha, ht, hv, rfl⟩
  · rintro ⟨rfl, ho, ha, ht, hv, rfl⟩
    exact ⟨(), c, ⟨ha, rfl⟩, (), c, ⟨ho, rfl⟩, (), c, ⟨ht, rfl⟩, (), _, ⟨_, ⟨ht, hv, rfl⟩, rfl⟩,
      rfl, rfl⟩

theorem burn_ok {u : Unit} :
    burn sender amount c = .ok (u, c') ↔
      c.owner = sender ∧ 0 < amount ∧ sender ≠ 0 ∧
        ∃ h : amount ≤ c.erc20.balances sender,
          c' = { c with erc20 := c.erc20.destroy sender amount h } := by
  simp only [burn, ERC20.burn, Tx.bind_ok, onlyOwner_ok, checkZero_ok, Tx.get_ok, Tx.revertIf_ok,
    super_ok, ERC20._burn_ok, Nat.not_lt]
  constructor
  · rintro ⟨_, _, ⟨ho, rfl⟩, _, _, ⟨ha, rfl⟩, _, _, ⟨rfl, rfl⟩, _, _, ⟨-, rfl⟩, _, ⟨hs, hv, rfl⟩, rfl⟩
    exact ⟨ho, ha, hs, hv, rfl⟩
  · rintro ⟨ho, ha, hs, hv, rfl⟩
    exact ⟨(), c, ⟨ho, rfl⟩, (), c, ⟨ha, rfl⟩, c, c, ⟨rfl, rfl⟩, (), c, ⟨hv, rfl⟩, _,
      ⟨hs, hv, rfl⟩, rfl⟩

end StableCoin

end AdvFoundry.Drs
