import AdvFoundry.Evm.Abi
import AdvFoundry.Evm.Run
import AdvFoundry.OpenZeppelin.Access
import AdvFoundry.OpenZeppelin.ERC20

/-!
# MerkleAirdrop

`merkle-trees-proofs/src/MerkleAirdrop.sol` and the `AuraToken.sol` it gives
away, with the token's other users. The hash function, `ECDSA.tryRecover` and
`MerkleProof.verify` are parameters; what is hashed is as the source has it.

`claimers` is never written nor read and is left out.
-/

namespace AdvFoundry.Airdrop

open Function

/-- `keccak256`; the address `ECDSA.tryRecover` gives, zero when it recovers
none; and `MerkleProof.verify`. -/
structure Crypto where
  keccak256 : List UInt8 → Bytes32
  tryRecover : (digest : Bytes32) → (v : UInt8) → (r s : Bytes32) → Address
  verify : (proof : List Bytes32) → (root leaf : Bytes32) → Bool

/-- No two of these texts have the same hash. -/
def Crypto.CollisionFree (C : Crypto) (texts : List (List UInt8)) : Prop :=
  ∀ x ∈ texts, ∀ y ∈ texts, C.keccak256 x = C.keccak256 y → x = y

instance (C : Crypto) (texts : List (List UInt8)) : Decidable (C.CollisionFree texts) :=
  inferInstanceAs (Decidable (∀ x ∈ texts, ∀ y ∈ texts, C.keccak256 x = C.keccak256 y → x = y))

theorem Crypto.CollisionFree.mono {C : Crypto} {texts texts' : List (List UInt8)}
    (h : C.CollisionFree texts) (hsub : ∀ x ∈ texts', x ∈ texts) : C.CollisionFree texts' :=
  fun x hx y hy => h x (hsub x hx) y (hsub y hy)

/-! ## AuraToken -/

/-- Storage of `AuraToken`: its base contracts' only. -/
structure AuraToken where
  erc20 : ERC20
  owner : Address

inductive TokenError
  | ownable (e : OwnableError)
  | erc20 (e : ERC20Error)
  deriving DecidableEq

namespace AuraToken

abbrev TokenTx := Tx TokenError AuraToken

/-- A function inherited from `ERC20`. -/
def super {α : Type} (x : Tx ERC20Error ERC20 α) : TokenTx α :=
  Tx.call (·.erc20) (fun t s => { s with erc20 := t }) .erc20 x

/-- A function inherited from `Ownable`. -/
def superOwnable {α : Type} (x : Tx OwnableError Address α) : TokenTx α :=
  Tx.call (·.owner) (fun o s => { s with owner := o }) .ownable x

def mint (sender dst : Address) (amount : Nat) : TokenTx Unit := do
  superOwnable (Tx.view fun owner => Ownable.onlyOwner sender owner)
  super (ERC20._mint dst amount)

end AuraToken

/-! ## MerkleAirdrop -/

/-- `MerkleAirdrop`: its immutable `i_merkleRoot` and its storage `s_hasClaimed`. -/
structure MerkleAirdrop where
  merkleRoot : Bytes32
  hasClaimed : Address → Bool

/-- The airdrop and the token `i_airdropToken`. -/
structure World where
  airdrop : MerkleAirdrop
  token : AuraToken

inductive AirdropError
  | proofInvalid
  | alreadyClaimed
  | signatureInvalid
  | safeERC20FailedOperation
  | token (e : TokenError)
  deriving DecidableEq

abbrev AirdropTx := Tx AirdropError World

/-- A call of a function of the token. -/
def callToken {α : Type} (x : Tx TokenError AuraToken α) : AirdropTx α :=
  Tx.call (·.token) (fun t w => { w with token := t }) .token x

/-- The arguments of `claim`, as the ABI decodes them. -/
structure Claim where
  account : Address
  amount : Nat
  amount_lt : amount < uintSize
  merkleProof : List Bytes32
  v : UInt8
  r : Bytes32
  s : Bytes32

/-- `MerkleAirdrop`'s constructor. -/
def constructor (merkleRoot : Bytes32) : MerkleAirdrop := ⟨merkleRoot, fun _ => false⟩

section Functions

variable (C : Crypto)

def TYPE_HASH : Bytes32 :=
  C.keccak256 (asciiBytes "AirdropClaimer(address account ,uint256 amount)")

/-- `EIP712._domainSeparatorV4` of the airdrop at `this`. -/
def _domainSeparatorV4 (chainid : Nat) (this : Address) : Bytes32 :=
  C.keccak256 <| abiEncode
    [.bytes32 (C.keccak256 (asciiBytes
      "EIP712Domain(string name,string version,uint256 chainId,address verifyingContract)")),
      .bytes32 (C.keccak256 (asciiBytes "MerkleAirdrop")), .bytes32 (C.keccak256 (asciiBytes "1")),
      .uint256 chainid, .address this]

/-- `EIP712._hashTypedDataV4`. -/
def _hashTypedDataV4 (chainid : Nat) (this : Address) (structHash : Bytes32) : Bytes32 :=
  C.keccak256 ([0x19, 0x01] ++ abiEncode
    [.bytes32 (_domainSeparatorV4 C chainid this), .bytes32 structHash])

def getMessageHash (chainid : Nat) (this account : Address) (amount : Nat) : Bytes32 :=
  _hashTypedDataV4 C chainid this <| C.keccak256 <| abiEncode
    [.bytes32 (TYPE_HASH C), .address account, .uint256 amount]

def _isValidSigature (expectedSigner : Address) (digest : Bytes32) (v : UInt8) (r s : Bytes32) :
    Bool :=
  let actualSigner := C.tryRecover digest v r s
  decide (actualSigner ≠ 0 ∧ actualSigner = expectedSigner)

/-- The leaf of an account and its amount, hashed twice. -/
def leaf (account : Address) (amount : Nat) : Bytes32 :=
  C.keccak256 <| abiEncode [.bytes32 (C.keccak256 (abiEncode [.address account, .uint256 amount]))]

/-- `SafeERC20.safeTransfer`, by the airdrop. -/
def safeTransfer (this dst : Address) (amount : Nat) : AirdropTx Unit := do
  let success ← callToken (AuraToken.super (ERC20.transfer this dst amount))
  Tx.revertIf (success = false) .safeERC20FailedOperation

def claim (chainid : Nat) (this : Address) (c : Claim) : AirdropTx Unit := do
  let w ← Tx.get
  Tx.revertIf (w.airdrop.hasClaimed c.account = true) .alreadyClaimed
  let digest := getMessageHash C chainid this c.account c.amount
  Tx.revertIf (_isValidSigature C c.account digest c.v c.r c.s = false) .signatureInvalid
  Tx.revertIf (C.verify c.merkleProof w.airdrop.merkleRoot (leaf C c.account c.amount) = false)
    .proofInvalid
  Tx.modify fun w => { w with
    airdrop := { w.airdrop with hasClaimed := update w.airdrop.hasClaimed c.account true } }
  safeTransfer this c.account c.amount

/-! ## The system -/

/-- Everything that can happen: claims, and the functions of the token. -/
inductive Call
  | claim (c : Claim)
  | token (op : TokenOp)
  | mint (dst : Address) (amount : Nat)
  | transferOwnership (newOwner : Address)
  | renounceOwnership

/-- Who sends which call, on which chain. The airdrop itself calls nothing but
the transfer of a claim. -/
structure Msg (this : Address) where
  sender : Address
  sender_ne : sender ≠ this
  chainid : Nat
  call : Call

def Msg.exec {this : Address} (m : Msg this) : AirdropTx Unit :=
  match m.call with
  | .claim c => Airdrop.claim C m.chainid this c
  | .token op => callToken (AuraToken.super (op.exec m.sender))
  | .mint dst amount => callToken (AuraToken.mint m.sender dst amount)
  | .transferOwnership newOwner =>
    callToken (AuraToken.superOwnable (Ownable.transferOwnership m.sender newOwner))
  | .renounceOwnership => callToken (AuraToken.superOwnable (Ownable.renounceOwnership m.sender))

/-- A call with its outcome, successful or reverted. -/
def Step {this : Address} (w : World) (l : Msg this × Bool) (w' : World) : Prop :=
  (l.1.exec C).succeeds w = l.2 ∧ w' = (l.1.exec C).after w

end Functions

/-- A world in which the airdrop was just deployed. An address without code has
approved nobody. -/
structure Deployed (this : Address) (w : World) : Prop where
  built : ∃ root, w.airdrop = constructor root
  no_approval : w.token.erc20.NoApproval this

end AdvFoundry.Airdrop
