import AdvFoundry.Airdrop.Claims

/-!
# The message an account signs

EIP-712 hashes a struct under the text `name(type₁ name₁,type₂ name₂)`. The text
that `MerkleAirdrop` hashes has a blank before its comma, so its struct hash is
that of another type, and what it asks the account to sign is not the message any
standard signer signs for `AirdropClaimer`.

`message_never_standard`: this is so for every account and amount.
-/

namespace AdvFoundry.Airdrop

/-- EIP-712's `encodeType` of a struct without nested ones: its name and, for each
member, type and name. -/
def encodeType (name : String) (members : List (String × String)) : String :=
  name ++ "(" ++ ",".intercalate (members.map fun m => m.1 ++ " " ++ m.2) ++ ")"

/-- `struct AirdropClaimer { address account; uint256 amount; }`. -/
def airdropClaimerType : String :=
  encodeType "AirdropClaimer" [("address", "account"), ("uint256", "amount")]

section Standard

variable (C : Crypto) (chainid : Nat) (this account : Address) (amount : Nat)

/-- The encoding of the struct under a type hash. -/
def structBytes (typeHash : Bytes32) : List UInt8 :=
  abiEncode [.bytes32 typeHash, .address account, .uint256 amount]

/-- The message for a struct hash in the domain of the airdrop. -/
def messageBytes (structHash : Bytes32) : List UInt8 :=
  [0x19, 0x01] ++ abiEncode [.bytes32 (_domainSeparatorV4 C chainid this), .bytes32 structHash]

/-- `typeHash` of the struct. -/
def standardTypeHash : Bytes32 := C.keccak256 (asciiBytes airdropClaimerType)

/-- `hashStruct` of the struct. -/
def standardStructHash : Bytes32 :=
  C.keccak256 (structBytes account amount (standardTypeHash C))

/-- What a standard signer signs. -/
def standardDigest : Bytes32 :=
  C.keccak256 (messageBytes C chainid this (standardStructHash C account amount))

/-- What is hashed on the way to the two messages, after the domain. -/
def hashedTexts : List (List UInt8) :=
  [asciiBytes airdropClaimerType, asciiBytes "AirdropClaimer(address account ,uint256 amount)",
    structBytes account amount (standardTypeHash C), structBytes account amount (TYPE_HASH C),
    messageBytes C chainid this (standardStructHash C account amount),
    messageBytes C chainid this (C.keccak256 (structBytes account amount (TYPE_HASH C)))]

end Standard

namespace TypedLemmas

variable {C : Crypto} {chainid : Nat} {this account : Address} {amount : Nat}

theorem getMessageHash_eq : getMessageHash C chainid this account amount =
    C.keccak256 (messageBytes C chainid this
      (C.keccak256 (structBytes account amount (TYPE_HASH C)))) := rfl

theorem structBytes_inj {h h' : Bytes32}
    (heq : structBytes account amount h = structBytes account amount h') : h = h' :=
  (abiEncode_bytes32_inj heq).1

theorem messageBytes_inj {h h' : Bytes32}
    (heq : messageBytes C chainid this h = messageBytes C chainid this h') : h = h' := by
  have hwords := List.append_cancel_left heq
  exact (abiEncode_bytes32_inj (abiEncode_bytes32_inj hwords).2).1

theorem typeText_ne : asciiBytes airdropClaimerType ≠
    asciiBytes "AirdropClaimer(address account ,uint256 amount)" := by
  decide +kernel

end TypedLemmas

open TypedLemmas ClaimLemmas

/-- For every account and amount, on every chain: without a hash collision among
the texts on the way, the message of the airdrop is not the standard message of
the struct; and a claim with a signature of the account that is for the standard
message and no other never succeeds. -/
theorem message_never_standard {C : Crypto} {chainid : Nat} {this account : Address} {amount : Nat}
    (hfree : C.CollisionFree (hashedTexts C chainid this account amount)) :
    getMessageHash C chainid this account amount ≠ standardDigest C chainid this account amount ∧
    ∀ (c : Claim) (w w' : World), c.account = account → c.amount = amount →
      (∀ digest, C.tryRecover digest c.v c.r c.s = account →
        digest = standardDigest C chainid this account amount) →
      claim C chainid this c w ≠ .ok ((), w') := by
  have hne : getMessageHash C chainid this account amount ≠
      standardDigest C chainid this account amount := by
    rw [getMessageHash_eq]
    intro heq
    -- equal digests are digests of equal messages, and so on down to the type texts
    have hmessage := hfree _ (by simp [hashedTexts]) _ (by simp [hashedTexts]) heq
    have hstruct := hfree _ (by simp [hashedTexts]) _ (by simp [hashedTexts])
      (messageBytes_inj hmessage)
    have htype := hfree _ (by simp [hashedTexts]) _ (by simp [hashedTexts])
      (structBytes_inj hstruct)
    exact typeText_ne htype.symm
  refine ⟨hne, ?_⟩
  rintro c w w' rfl rfl honly hok
  obtain ⟨-, hconsented, -⟩ := claim_ok.mp hok
  exact hne (honly _ hconsented.signed)

/-! ### A standard signature

The account of the airdrop's first sample signs the standard message for the same
amount. The hashes are the real ones, and so is the address `otherSigner` that
the signature gives for the airdrop's own message. -/

def otherSigner : Address := 0x80c1b4dae69502fada7acd02f7f9746fd98e25a2

/-- The further hashes that occur. -/
def typedHashes : List (List UInt8 × Bytes32) :=
  [(asciiBytes "AirdropClaimer(address account,uint256 amount)",
      0x8ce6e8333799fe42eb7840bde87fd612612f92cb32fbb02d6d0fe421f29aba7f),
    (structBytes sampleAccount (2500 * 10 ^ 18)
        0x8ce6e8333799fe42eb7840bde87fd612612f92cb32fbb02d6d0fe421f29aba7f,
      0x08383838f9f7659ab27e7131fc560e82224aac1cba7ed0f2eb03d5f63482e777),
    ([0x19, 0x01] ++ abiEncode
        [.bytes32 0x560cfe904924d5bca48113387cf65e6fa53c0ea1f9f6aa0f32e432a89379573e,
          .bytes32 0x08383838f9f7659ab27e7131fc560e82224aac1cba7ed0f2eb03d5f63482e777],
      0xb4897ac1a7fe08a63548f79d365486b62213770b93ac0e9d8b53d0531cf51b7a)]

def typedClaim : Claim where
  account := sampleAccount
  amount := 2500 * 10 ^ 18
  amount_lt := sampleClaim.amount_lt
  merkleProof := []
  v := 27
  r := 0xf30e4bd8094e53a679ddb8f55b5216b03c44623fc4279ef0791f9aa1f6930d49
  s := 0x59c7f10786fd2828b26b91a84fa1939ada7eba9cfef08f4e61e6df08b384a565

def typedCrypto : Crypto where
  keccak256 bytes := (((typedHashes ++ sampleHashes).lookup bytes).getD 0)
  tryRecover digest v r s :=
    if v = typedClaim.v ∧ r = typedClaim.r ∧ s = typedClaim.s then
      if digest = 0xb4897ac1a7fe08a63548f79d365486b62213770b93ac0e9d8b53d0531cf51b7a then
        sampleAccount
      else if digest = 0x205d211659ac15d3041b5bbe50f325e8fe77227a7d09e2adcb026a0f28cbbfdc then
        otherSigner
      else 0
    else 0
  verify proof root leaf := proof.isEmpty && root == leaf

theorem typedCrypto_only {digest : Bytes32}
    (h : typedCrypto.tryRecover digest typedClaim.v typedClaim.r typedClaim.s = sampleAccount) :
    digest = 0xb4897ac1a7fe08a63548f79d365486b62213770b93ac0e9d8b53d0531cf51b7a := by
  by_contra hne
  simp only [typedCrypto, true_and, if_true, if_neg hne] at h
  split at h
  · exact absurd h (by decide)
  · exact absurd h (by decide)

theorem typed_digest : standardDigest typedCrypto 31337 0xA1 sampleAccount (2500 * 10 ^ 18) =
    0xb4897ac1a7fe08a63548f79d365486b62213770b93ac0e9d8b53d0531cf51b7a := by
  decide +kernel

/-- No state of the airdrop accepts the signature. -/
theorem message_never_standard_sample :
    standardDigest typedCrypto 31337 0xA1 sampleAccount (2500 * 10 ^ 18) ≠
        getMessageHash typedCrypto 31337 0xA1 sampleAccount (2500 * 10 ^ 18) ∧
      ∀ w w' : World, claim typedCrypto 31337 0xA1 typedClaim w ≠ .ok ((), w') := by
  obtain ⟨hne, hnever⟩ := @message_never_standard typedCrypto 31337 0xA1 sampleAccount
    (2500 * 10 ^ 18) (by decide +kernel)
  exact ⟨hne.symm, fun w w' => hnever typedClaim w w' rfl rfl fun digest hdigest =>
    (typedCrypto_only hdigest).trans typed_digest.symm⟩

/-- The signature is the account's for the standard message, and the airdrop, which
pays the same claim with a signature of its own message, refuses it. -/
theorem standard_signature_refused :
    typedCrypto.tryRecover (standardDigest typedCrypto 31337 0xA1 sampleAccount (2500 * 10 ^ 18))
        typedClaim.v typedClaim.r typedClaim.s = sampleAccount ∧
      getMessageHash typedCrypto 31337 0xA1 sampleAccount (2500 * 10 ^ 18) =
        0x205d211659ac15d3041b5bbe50f325e8fe77227a7d09e2adcb026a0f28cbbfdc ∧
      standardDigest typedCrypto 31337 0xA1 sampleAccount (2500 * 10 ^ 18) =
        0xb4897ac1a7fe08a63548f79d365486b62213770b93ac0e9d8b53d0531cf51b7a ∧
      (claim typedCrypto 31337 0xA1 typedClaim).succeeds sampleWorld = false ∧
      (claim sampleCrypto 31337 0xA1 sampleClaim).succeeds sampleWorld = true := by
  rw [typed_digest]
  decide +kernel

end AdvFoundry.Airdrop
