import AdvFoundry.Evm.Machine
import AdvFoundry.Rebase.Accounting

/-!
# Vault

`cross-chain-rebase-tkn/src/Vault.sol` over `RebaseToken`, with the token's other
users and with time. `reedem` hands over control to the receiver of the ETH, so
it is a `Proc`.

The world counts what a history of the vault consists of: the ETH deposited, the
plain ETH received, the ETH paid out, and the interest by which the visible
balances grew while time passed. No contract reads these counts; a revert takes
them back with everything else.
-/

namespace AdvFoundry.Rebase

open Function

/-- The token, the vault's ETH and the block time, with the counts. -/
structure World where
  token : RebaseToken
  balance : Nat
  timestamp : Nat
  deposited : Nat
  plain : Nat
  paid : Nat
  accrued : Nat

inductive VaultError
  | amountNotValid
  | burnFailed
  | rebase (e : RebaseError)
  deriving DecidableEq

/-- A payment of ETH to an account. -/
structure Payment where
  dst : Address
  amount : Nat

abbrev VaultTx := Tx VaultError World
abbrev VaultProc := Proc VaultError World Payment Unit

namespace World

/-- All visible balances together. Irreducible, since a sum over all addresses is
not to be evaluated. -/
@[irreducible] def liabilities (w : World) : Nat := ∑ u, w.token.visible w.timestamp u

def setToken (w : World) (s : RebaseToken) : World := { w with token := s }

end World

/-- A call of a function of the token. -/
def callToken {α : Type} (x : Tx RebaseError RebaseToken α) : VaultTx α :=
  Tx.call (·.token) (fun s w => w.setToken s) .rebase x

/-! ## The functions of `Vault` -/

/-- `deposit`: the ETH is there before the body runs. -/
def deposit (this sender : Address) (value : Nat) : VaultTx Unit := do
  Tx.modify fun w => { w with balance := w.balance + value, deposited := w.deposited + value }
  Tx.revertIf (value < 0) .amountNotValid
  let w ← Tx.get
  callToken (RebaseToken.mint ⟨this, w.timestamp⟩ sender value)

/-- `dst.call{value: amount}("")`: fails when the vault has less, else the ETH
leaves before the code of `dst` runs, and comes back when that code reverts. -/
def pay (dst : Address) (amount : Nat) : VaultProc Bool := do
  let w ← .tx Tx.get
  if w.balance < amount then
    pure false
  else
    .tx (Tx.modify fun w => { w with balance := w.balance - amount, paid := w.paid + amount })
    match ← Proc.call ⟨dst, amount⟩ with
    | some () => pure true
    | none =>
      .tx (Tx.modify fun w => { w with balance := w.balance + amount, paid := w.paid - amount })
      pure false

def reedem (this sender : Address) : VaultProc Unit := do
  let w ← .tx Tx.get
  let balance ← .tx (callToken (Tx.view (RebaseToken.balanceOf w.timestamp sender)))
  .tx (Tx.revertIf (balance < 0) .amountNotValid)
  .tx (callToken (RebaseToken.burn ⟨this, w.timestamp⟩ sender balance))
  let success ← pay sender balance
  .tx (Tx.revertIf (success = false) .burnFailed)

/-- `receive`: plain ETH is accepted. -/
def receive (value : Nat) : VaultTx Unit :=
  Tx.modify fun w => { w with balance := w.balance + value, plain := w.plain + value }

/-! ## The system -/

/-- Time passes, and the visible balances grow. -/
def wait (seconds : Nat) : VaultTx Unit :=
  Tx.modify fun w => { w with
    timestamp := w.timestamp + seconds
    accrued := w.accrued +
      (({ w with timestamp := w.timestamp + seconds } : World).liabilities - w.liabilities) }

/-- Everything that can happen. The owner of the token does not grant the role
`MINT_AND_BURN` again. -/
inductive Call
  | deposit (value : Nat)
  | reedem
  | receive (value : Nat)
  | token (op : RebaseOp) (no_grant : ∀ u, op ≠ .grantMintAndBurnRole u)
  | wait (seconds : Nat)

/-- Who sends which call. The calls the vault makes are part of its functions. -/
structure Msg (this : Address) where
  sender : Address
  sender_ne : sender ≠ this
  call : Call

/-- A call of the token by one of its users. -/
def userCall (sender : Address) (op : RebaseOp) : VaultTx Unit := do
  let w ← Tx.get
  callToken (op.exec ⟨sender, w.timestamp⟩)

def Msg.exec {this : Address} (m : Msg this) : VaultProc Unit :=
  match m.call with
  | .deposit value => .tx (Rebase.deposit this m.sender value)
  | .reedem => Rebase.reedem this m.sender
  | .receive value => .tx (Rebase.receive value)
  | .token op _ => .tx (userCall m.sender op)
  | .wait seconds => .tx (Rebase.wait seconds)

abbrev VaultMachine := Machine VaultError World Payment Unit

def Step (this : Address) : VaultMachine → Event (Msg this) Unit → VaultMachine → Prop :=
  Machine.Step Msg.exec

/-- A world in which token and vault were just deployed and the vault was given
the role. What ETH it had before it got its code counts as plain ETH. -/
structure Deployed (this : Address) (w : World) : Prop where
  built : ∃ sender s, constructor sender = .ok s ∧
    RebaseToken.grantMintAndBurnRole ⟨sender, w.timestamp⟩ this s = .ok ((), w.token)
  no_deposit : w.deposited = 0
  plain_before : w.plain = w.balance
  no_payment : w.paid = 0
  no_interest : w.accrued = 0

end AdvFoundry.Rebase
