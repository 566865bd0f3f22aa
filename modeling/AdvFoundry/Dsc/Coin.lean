import AdvFoundry.OpenZeppelin.Access
import AdvFoundry.OpenZeppelin.ERC20

/-!
# DecentralisedStableCoin

`Decentralised-StableCoin/src/DecentralisedStableCoin.sol`: an
`ERC20Burnable` and `Ownable` token whose `burn` is overridden to be
`onlyOwner`, with an `onlyOwner` `mint`. Every other function is inherited as
it is, `burnFrom` among them.
-/

namespace AdvFoundry.Dsc

/-- Storage of `DecentralisedStableCoin`: its base contracts' only. -/
structure DecentralisedStableCoin where
  erc20 : ERC20
  owner : Address

/-- The errors a call of the coin can give: its own, and its bases'. -/
inductive CoinError
  | amountExceedsBalance (amount : Nat)
  | amountShouldBeNonZero
  | mustBeNonZeroAddress
  | ownable (e : OwnableError)
  | erc20 (e : ERC20Error)
  deriving DecidableEq

namespace DecentralisedStableCoin

abbrev CoinTx := Tx CoinError DecentralisedStableCoin

/-- A function inherited from `ERC20` or `ERC20Burnable`. -/
def super {α : Type} (x : Tx ERC20Error ERC20 α) : CoinTx α :=
  Tx.call (·.erc20) (fun t c => { c with erc20 := t }) .erc20 x

/-- A function inherited from `Ownable`. -/
def superOwnable {α : Type} (x : Tx OwnableError Address α) : CoinTx α :=
  Tx.call (·.owner) (fun o c => { c with owner := o }) .ownable x

def onlyOwner (sender : Address) : CoinTx Unit :=
  superOwnable (Tx.view fun owner => Ownable.onlyOwner sender owner)

def burn (sender : Address) (amount : Nat) : CoinTx Unit := do
  onlyOwner sender
  let c ← Tx.get
  let balanceOfCaller := c.erc20.balances sender
  Tx.revertIf (amount ≤ 0) .amountShouldBeNonZero
  Tx.revertIf (amount > balanceOfCaller) (.amountExceedsBalance balanceOfCaller)
  super (ERC20.burn sender amount)

/-- The zero check of `mint` is on `msg.sender`; the receiver's is in `_mint`. -/
def mint (sender receiver : Address) (amount : Nat) : CoinTx Bool := do
  onlyOwner sender
  Tx.revertIf (amount ≤ 0) .amountShouldBeNonZero
  Tx.revertIf (sender = 0) .mustBeNonZeroAddress
  super (ERC20._mint receiver amount)
  pure true

variable {c c' : DecentralisedStableCoin} {sender receiver : Address} {amount : Nat}

theorem super_ok {α : Type} {x : Tx ERC20Error ERC20 α} {a : α} :
    super x c = .ok (a, c') ↔ ∃ t, x c.erc20 = .ok (a, t) ∧ c' = { c with erc20 := t } := by
  simp [super]

theorem superOwnable_ok {α : Type} {x : Tx OwnableError Address α} {a : α} :
    superOwnable x c = .ok (a, c') ↔ ∃ o, x c.owner = .ok (a, o) ∧ c' = { c with owner := o } := by
  simp [superOwnable]

theorem onlyOwner_ok {u : Unit} :
    onlyOwner sender c = .ok (u, c') ↔ c.owner = sender ∧ c' = c := by
  simp [onlyOwner, superOwnable_ok]

theorem mint_ok {b : Bool} :
    mint sender receiver amount c = .ok (b, c') ↔
      b = true ∧ c.owner = sender ∧ 0 < amount ∧ sender ≠ 0 ∧ receiver ≠ 0 ∧
        ∃ h : c.erc20.totalSupply + amount < uintSize,
          c' = { c with erc20 := c.erc20.issue receiver amount h } := by
  simp only [mint, Tx.bind_ok, onlyOwner_ok, Tx.revertIf_ok, super_ok, ERC20._mint_ok, Tx.pure_ok,
    Nat.not_le]
  constructor
  · rintro ⟨_, _, ⟨ho, rfl⟩, _, _, ⟨ha, rfl⟩, _, _, ⟨hs, rfl⟩, _, _, ⟨_, ⟨ht, hv, rfl⟩, rfl⟩,
      rfl, rfl⟩
    exact ⟨rfl, ho, ha, hs, ht, hv, rfl⟩
  · rintro ⟨rfl, ho, ha, hs, ht, hv, rfl⟩
    exact ⟨(), c, ⟨ho, rfl⟩, (), c, ⟨ha, rfl⟩, (), c, ⟨hs, rfl⟩, (), _, ⟨_, ⟨ht, hv, rfl⟩, rfl⟩,
      rfl, rfl⟩

theorem burn_ok {u : Unit} :
    burn sender amount c = .ok (u, c') ↔
      c.owner = sender ∧ 0 < amount ∧ sender ≠ 0 ∧
        ∃ h : amount ≤ c.erc20.balances sender,
          c' = { c with erc20 := c.erc20.destroy sender amount h } := by
  simp only [burn, ERC20.burn, Tx.bind_ok, onlyOwner_ok, Tx.get_ok, Tx.revertIf_ok, super_ok,
    ERC20._burn_ok, Nat.not_le, Nat.not_lt]
  constructor
  · rintro ⟨_, _, ⟨ho, rfl⟩, _, _, ⟨rfl, rfl⟩, _, _, ⟨ha, rfl⟩, _, _, ⟨-, rfl⟩, _, ⟨hs, hv, rfl⟩, rfl⟩
    exact ⟨ho, ha, hs, hv, rfl⟩
  · rintro ⟨ho, ha, hs, hv, rfl⟩
    exact ⟨(), c, ⟨ho, rfl⟩, c, c, ⟨rfl, rfl⟩, (), c, ⟨ha, rfl⟩, (), c, ⟨hv, rfl⟩, _,
      ⟨hs, hv, rfl⟩, rfl⟩

end DecentralisedStableCoin

end AdvFoundry.Dsc
