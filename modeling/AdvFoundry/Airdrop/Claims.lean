import AdvFoundry.Airdrop.Merkle

/-!
# One airdrop for an account, with its consent

A claim that succeeds marks its account, so it is the only one of that account;
it carries a signature of the account and a proof for exactly this amount; and
it moves exactly this amount to the account, whoever sent it. Nothing else moves
tokens out of the airdrop (`claims_once_with_consent`).
-/

namespace AdvFoundry.Airdrop

open Function

variable {this : Address}

/-- The claim of a call that succeeded. -/
def claimOf (l : Msg this × Bool) : Option Claim :=
  match l.2, l.1.call with
  | true, .claim c => some c
  | _, _ => none

/-- The successful claims of a run. -/
def claims (labels : List (Msg this × Bool)) : List Claim := labels.filterMap claimOf

/-- What a call brings to the airdrop. A claim of its own address would go to
itself. -/
def received (l : Msg this × Bool) : Nat :=
  match l.2, l.1.call with
  | true, .claim c => if c.account = this then c.amount else 0
  | true, .token op => op.sentTo this
  | true, .mint dst amount => if dst = this then amount else 0
  | _, _ => 0

/-- The account signed the message for the amount, and the proof is for both. -/
structure Consented (C : Crypto) (chainid : Nat) (this : Address) (root : Bytes32) (c : Claim) :
    Prop where
  signed : C.tryRecover (getMessageHash C chainid this c.account c.amount) c.v c.r c.s = c.account
  nonzero : c.account ≠ 0
  listed : C.verify c.merkleProof root (leaf C c.account c.amount) = true

namespace ClaimLemmas

variable {C : Crypto} {w w' : World} {c : Claim} {chainid : Nat} {u : Unit}

theorem callToken_ok {α : Type} {x : Tx TokenError AuraToken α} {a : α} :
    callToken x w = .ok (a, w') ↔ ∃ t, x w.token = .ok (a, t) ∧ w' = { w with token := t } := by
  simp [callToken]

theorem super_ok {α : Type} {x : Tx ERC20Error ERC20 α} {t t' : AuraToken} {a : α} :
    AuraToken.super x t = .ok (a, t') ↔ ∃ e, x t.erc20 = .ok (a, e) ∧ t' = { t with erc20 := e } := by
  simp [AuraToken.super]

theorem superOwnable_ok {α : Type} {x : Tx OwnableError Address α} {t t' : AuraToken} {a : α} :
    AuraToken.superOwnable x t = .ok (a, t') ↔
      ∃ o, x t.owner = .ok (a, o) ∧ t' = { t with owner := o } := by
  simp [AuraToken.superOwnable]

/-- The storage after a claim of the account. -/
def claimed (w : World) (this : Address) (c : Claim) (h : c.amount ≤ w.token.erc20.balances this) :
    World where
  airdrop := { w.airdrop with hasClaimed := update w.airdrop.hasClaimed c.account true }
  token := { w.token with erc20 := w.token.erc20.move this c.account c.amount h }

theorem _isValidSigature_iff {signer : Address} {digest r s : Bytes32} {v : UInt8} :
    _isValidSigature C signer digest v r s = true ↔
      C.tryRecover digest v r s = signer ∧ signer ≠ 0 := by
  simp only [_isValidSigature, decide_eq_true_eq]
  constructor
  · rintro ⟨hne, rfl⟩
    exact ⟨rfl, hne⟩
  · rintro ⟨rfl, hne⟩
    exact ⟨hne, rfl⟩

theorem claim_ok :
    claim C chainid this c w = .ok (u, w') ↔
      w.airdrop.hasClaimed c.account = false ∧
      Consented C chainid this w.airdrop.merkleRoot c ∧ this ≠ 0 ∧
        ∃ h : c.amount ≤ w.token.erc20.balances this, w' = claimed w this c h := by
  simp only [claim, safeTransfer, Tx.bind_ok, Tx.get_ok, Tx.revertIf_ok, Tx.modify_ok, callToken_ok,
    super_ok, ERC20.transfer_ok, Bool.not_eq_true, Bool.not_eq_false, _isValidSigature_iff]
  constructor
  · rintro ⟨_, _, ⟨rfl, rfl⟩, _, w, ⟨hnew, rfl⟩, _, _, ⟨⟨hsigned, hnonzero⟩, rfl⟩, _, _,
      ⟨hlisted, rfl⟩, _, _, rfl, _, _, ⟨_, ⟨_, ⟨-, hthis, -, hfunds, rfl⟩, rfl⟩, rfl⟩, -, rfl⟩
    exact ⟨hnew, ⟨hsigned, hnonzero, hlisted⟩, hthis, hfunds, rfl⟩
  · rintro ⟨hnew, ⟨hsigned, hnonzero, hlisted⟩, hthis, hfunds, rfl⟩
    refine ⟨w, w, ⟨rfl, rfl⟩, (), w, ⟨hnew, rfl⟩, (), w, ⟨⟨hsigned, hnonzero⟩, rfl⟩, (), w,
      ⟨hlisted, rfl⟩, (), _, rfl, true, _, ⟨_, ⟨_, ⟨rfl, hthis, hnonzero, hfunds, rfl⟩, rfl⟩, rfl⟩,
      by decide, rfl⟩

/-- A call either reverts and changes nothing, or it returns. -/
theorem step_cases {l : Msg this × Bool} (h : Step C w l w') :
    l.2 = false ∧ w' = w ∨ l.2 = true ∧ l.1.exec C w = .ok ((), w') := by
  obtain ⟨hflag, rfl⟩ := h
  rcases Tx.after_cases (l.1.exec C) w with hok | ⟨hfail, hsame⟩
  · exact .inr ⟨hflag ▸ (Tx.of_ok hok).1, hok⟩
  · exact .inl ⟨hflag ▸ hfail, hsame⟩

end ClaimLemmas

open ClaimLemmas

/-- What the calls up to now have left: the marks are those of the successful
claims, of which no two are of one account, and the airdrop has what it had and
received less what was claimed. -/
structure Ledger (C : Crypto) (this : Address) (w₀ : World) (labels : List (Msg this × Bool))
    (w : World) : Prop where
  root : w.airdrop.merkleRoot = w₀.airdrop.merkleRoot
  no_approval : w.token.erc20.NoApproval this
  once : ((claims labels).map Claim.account).Nodup
  marked : ∀ a, w.airdrop.hasClaimed a = true ↔ a ∈ (claims labels).map Claim.account
  consented : ∀ l ∈ labels, ∀ c, claimOf l = some c →
    Consented C l.1.chainid this w₀.airdrop.merkleRoot c
  balance : w.token.erc20.balances this + ((claims labels).map Claim.amount).sum =
    w₀.token.erc20.balances this + (labels.map received).sum

namespace ClaimLemmas

variable {C : Crypto} {w₀ w w' : World} {labels : List (Msg this × Bool)} {l : Msg this × Bool}

theorem claims_append : claims (labels ++ [l]) = claims labels ++ (claimOf l).toList := by
  unfold claims
  rw [List.filterMap_append]
  cases h : claimOf l <;> simp [h]

/-- A call that is no successful claim and leaves the marks alone. -/
theorem ledger_other (hw : Ledger C this w₀ labels w) (hl : claimOf l = none)
    (hairdrop : w'.airdrop = w.airdrop) (hno : w'.token.erc20.NoApproval this)
    (hbalance : w'.token.erc20.balances this = w.token.erc20.balances this + received l) :
    Ledger C this w₀ (labels ++ [l]) w' := by
  have hsame : claims (labels ++ [l]) = claims labels := by
    rw [claims_append, hl]
    exact List.append_nil _
  refine ⟨by rw [hairdrop, hw.root], hno, hsame ▸ hw.once, fun a => ?_, fun l' hl' c hc => ?_, ?_⟩
  · rw [hairdrop, hsame]
    exact hw.marked a
  · rcases List.mem_append.mp hl' with hl' | hl'
    · exact hw.consented l' hl' c hc
    · rw [List.mem_singleton.mp hl', hl] at hc
      cases hc
  · have hbefore := hw.balance
    simp only [hsame, List.map_append, List.map_cons, List.map_nil, List.sum_append, List.sum_cons,
      List.sum_nil, hbalance]
    omega

theorem ledger_claim {m : Msg this} {c : Claim} (hm : m.call = .claim c)
    (hw : Ledger C this w₀ labels w) (h : claim C m.chainid this c w = .ok ((), w')) :
    Ledger C this w₀ (labels ++ [(m, true)]) w' := by
  obtain ⟨hnew, hconsented, -, hfunds, rfl⟩ := claim_ok.mp h
  have hclaim : claimOf (m, true) = some c := by simp [claimOf, hm]
  have hclaims : claims (labels ++ [(m, true)]) = claims labels ++ [c] := by
    rw [claims_append, hclaim]
    rfl
  have hfresh : c.account ∉ (claims labels).map Claim.account := by
    rw [← hw.marked, hnew]
    decide
  refine ⟨hw.root, hw.no_approval, ?_, fun a => ?_, fun l' hl' c' hc' => ?_, ?_⟩
  · rw [hclaims, List.map_append, List.nodup_append]
    refine ⟨hw.once, List.nodup_singleton _, fun a ha b hb => ?_⟩
    rw [List.mem_singleton.mp hb]
    rintro rfl
    exact hfresh ha
  · rw [hclaims, List.map_append, List.mem_append, ← hw.marked]
    simp only [claimed, update_apply, List.map_cons, List.map_nil, List.mem_singleton]
    split
    · next ha => simp [ha]
    · next ha => simp [ha]
  · rcases List.mem_append.mp hl' with hl' | hl'
    · exact hw.consented l' hl' c' hc'
    · rw [List.mem_singleton.mp hl'] at hc' ⊢
      rw [hclaim] at hc'
      cases hc'
      rw [← hw.root]
      exact hconsented
  · have hreceived : received (m, true) = if c.account = this then c.amount else 0 := by
      simp [received, hm]
    have hbefore := hw.balance
    simp only [hclaims, claimed, hreceived, ERC20.move_balances, credit_apply, debit_self,
      List.map_append, List.map_cons, List.map_nil, List.sum_append, List.sum_cons, List.sum_nil,
      @eq_comm _ this c.account]
    split <;> omega

theorem ledger_step (hw : Ledger C this w₀ labels w) (h : Step C w l w') :
    Ledger C this w₀ (labels ++ [l]) w' := by
  obtain ⟨⟨sender, hsender, chainid, call⟩, ok⟩ := l
  rcases step_cases h with ⟨rfl, rfl⟩ | ⟨rfl, hexec⟩
  · exact ledger_other hw rfl rfl hw.no_approval rfl
  cases call with
  | claim c => exact ledger_claim rfl hw hexec
  | token op =>
    simp only [Msg.exec, callToken_ok, super_ok] at hexec
    obtain ⟨_, ⟨t, hop, rfl⟩, rfl⟩ := hexec
    obtain ⟨hbalance, hno⟩ := ERC20.passive_holder hop hsender hw.no_approval
    exact ledger_other hw rfl rfl hno hbalance
  | mint dst amount =>
    simp only [Msg.exec, AuraToken.mint, callToken_ok, Tx.bind_ok, superOwnable_ok, super_ok,
      Tx.view_ok, ERC20._mint_ok] at hexec
    obtain ⟨_, ⟨_, _, ⟨_, ⟨-, rfl⟩, rfl⟩, _, ⟨-, hsupply, rfl⟩, rfl⟩, rfl⟩ := hexec
    refine ledger_other hw rfl rfl hw.no_approval ?_
    simp only [received, ERC20.issue_balances, credit_apply, @eq_comm _ this dst]
    split <;> rfl
  | transferOwnership newOwner | renounceOwnership =>
    simp only [Msg.exec, callToken_ok, superOwnable_ok] at hexec
    obtain ⟨_, ⟨_, -, rfl⟩, rfl⟩ := hexec
    exact ledger_other hw rfl rfl hw.no_approval rfl

theorem ledger_run (h₀ : Deployed this w₀) (hrun : Run (Step C) w₀ labels w) :
    Ledger C this w₀ labels w := by
  induction hrun with
  | nil =>
    obtain ⟨root, hbuilt⟩ := h₀.built
    refine ⟨rfl, h₀.no_approval, List.nodup_nil, fun a => ?_, fun l hl => (by cases hl), rfl⟩
    rw [hbuilt]
    simp [constructor, claims]
  | snoc _ hstep ih => exact ledger_step ih hstep

end ClaimLemmas

/-! ## Every run -/

/-- In every run of claims and token calls by anyone, reverted ones included: no
account has two successful claims, and the marks are those of the accounts that
have one. Each successful claim carried a signature of its account, which is not
zero, over the message for its amount, and a valid proof of its leaf. The next
claim, whoever sends it, moves exactly its amount from the airdrop to its account
when it succeeds; a call that reverts changes nothing. What the airdrop had and
received is what it has and what was claimed. -/
theorem claims_once_with_consent {C : Crypto} {this : Address} {w₀ w : World}
    {labels : List (Msg this × Bool)} (h₀ : Deployed this w₀)
    (hrun : Run (Step C) w₀ labels w) :
    ((claims labels).map Claim.account).Nodup ∧
    (∀ l ∈ labels, ∀ c, claimOf l = some c →
      C.tryRecover (getMessageHash C l.1.chainid this c.account c.amount) c.v c.r c.s = c.account ∧
      c.account ≠ 0 ∧
      C.verify c.merkleProof w₀.airdrop.merkleRoot (leaf C c.account c.amount) = true) ∧
    (∀ a, w.airdrop.hasClaimed a = true ↔ a ∈ (claims labels).map Claim.account) ∧
    (∀ chainid c w', claim C chainid this c w = .ok ((), w') →
      (∃ h, w'.token.erc20 = w.token.erc20.move this c.account c.amount h) ∧
      w'.token.owner = w.token.owner ∧
      w'.airdrop.hasClaimed = update w.airdrop.hasClaimed c.account true) ∧
    (∀ (m : Msg this) w', Step C w (m, false) w' → w' = w) ∧
    w.token.erc20.balances this + ((claims labels).map Claim.amount).sum =
      w₀.token.erc20.balances this + (labels.map received).sum := by
  have hw := ledger_run h₀ hrun
  refine ⟨hw.once, fun l hl c hc => ?_, hw.marked, fun chainid c w' h => ?_, fun m w' h => ?_,
    hw.balance⟩
  · obtain ⟨hsigned, hnonzero, hlisted⟩ := hw.consented l hl c hc
    exact ⟨hsigned, hnonzero, hlisted⟩
  · obtain ⟨-, -, -, hfunds, rfl⟩ := claim_ok.mp h
    exact ⟨⟨hfunds, rfl⟩, rfl, rfl⟩
  · rcases step_cases h with ⟨-, rfl⟩ | ⟨htrue, -⟩
    · rfl
    · cases htrue

/-! ### One account

The airdrop at `0xA1` on the chain `31337`, for one account of which the key is
`0xA11CE`. The hashes and the signature are the real ones; with one leaf, that
leaf is the root and its proof is empty. -/

def sampleAccount : Address := 0xe05fcc23807536bee418f142d19fa0d21bb0cff7

def sampleClaim : Claim where
  account := sampleAccount
  amount := 2500 * 10 ^ 18
  amount_lt := by decide
  merkleProof := []
  v := 28
  r := 0xd47644539acec3da5e3ecf5fe8863c628a9c97e8b71e9ea9167a6f4f83c03c32
  s := 0x37e0399820a681eb3d1a10f29bce8cb42839c30918d5a8da51665524666edca3

/-- The hashes that occur. -/
def sampleHashes : List (List UInt8 × Bytes32) :=
  [(asciiBytes "EIP712Domain(string name,string version,uint256 chainId,address verifyingContract)",
      0x8b73c3c69bb8fe3d512ecc4cf759cc79239f7b179b0ffacaa9a75d522b39400f),
    (asciiBytes "MerkleAirdrop",
      0x62dc354de30d26ce9b2f70eb07adb531118c821fe79e3b934a07d7edef88b771),
    (asciiBytes "1", 0xc89efdaa54c0f20c7adf612882df0950f5a951637e0307cdcb4c672f298b8bc6),
    (asciiBytes "AirdropClaimer(address account ,uint256 amount)",
      0xd6838adcfa61d8541061765fcfe1a6fe93b4b78c597564f4bc94fc26059880b7),
    (abiEncode [.bytes32 0x8b73c3c69bb8fe3d512ecc4cf759cc79239f7b179b0ffacaa9a75d522b39400f,
        .bytes32 0x62dc354de30d26ce9b2f70eb07adb531118c821fe79e3b934a07d7edef88b771,
        .bytes32 0xc89efdaa54c0f20c7adf612882df0950f5a951637e0307cdcb4c672f298b8bc6,
        .uint256 31337, .address 0xA1],
      0x560cfe904924d5bca48113387cf65e6fa53c0ea1f9f6aa0f32e432a89379573e),
    (abiEncode [.bytes32 0xd6838adcfa61d8541061765fcfe1a6fe93b4b78c597564f4bc94fc26059880b7,
        .address sampleAccount, .uint256 (2500 * 10 ^ 18)],
      0x93f2d6348e5d1504ddcf82a148ce1f700c1e69393210ae02185752755f1c38ba),
    ([0x19, 0x01] ++ abiEncode
        [.bytes32 0x560cfe904924d5bca48113387cf65e6fa53c0ea1f9f6aa0f32e432a89379573e,
          .bytes32 0x93f2d6348e5d1504ddcf82a148ce1f700c1e69393210ae02185752755f1c38ba],
      0x205d211659ac15d3041b5bbe50f325e8fe77227a7d09e2adcb026a0f28cbbfdc),
    (abiEncode [.address sampleAccount, .uint256 (2500 * 10 ^ 18)],
      0x68bc7bf8207a1247780638b3eeaf3f9a5bd2aa42eb58f615625200f148cc3060),
    (abiEncode [.bytes32 0x68bc7bf8207a1247780638b3eeaf3f9a5bd2aa42eb58f615625200f148cc3060],
      0x522ade802b7a3509f7ecab16b116be497be6221a581f4e633f3d5bcfcb41491e)]

def sampleCrypto : Crypto where
  keccak256 bytes := ((sampleHashes.lookup bytes).getD 0)
  tryRecover digest v r s :=
    if digest = 0x205d211659ac15d3041b5bbe50f325e8fe77227a7d09e2adcb026a0f28cbbfdc ∧
        v = sampleClaim.v ∧ r = sampleClaim.r ∧ s = sampleClaim.s then sampleAccount
    else 0
  verify proof root leaf := proof.isEmpty && root == leaf

/-- The airdrop holds `10 ^ 23`. -/
def sampleWorld : World where
  airdrop := constructor 0x522ade802b7a3509f7ecab16b116be497be6221a581f4e633f3d5bcfcb41491e
  token := ⟨ERC20.empty.issue 0xA1 (10 ^ 23) (by decide), 9⟩

theorem sampleWorld_deployed : Deployed 0xA1 sampleWorld := ⟨⟨_, rfl⟩, fun _ => rfl⟩

/-- A relayer sends the claim of the account. -/
def relayed : Msg 0xA1 := ⟨7, by decide, 31337, .claim sampleClaim⟩

/-- When the claim is sent once more, it reverts, and the account has been paid
once. -/
theorem claims_once_relayed :
    ∃ w, Run (Step sampleCrypto) sampleWorld [(relayed, true), (relayed, false)] w ∧
      w.airdrop.hasClaimed sampleAccount = true ∧
      w.token.erc20.balances 0xA1 + 2500 * 10 ^ 18 = 10 ^ 23 := by
  have hfirst : Step sampleCrypto sampleWorld (relayed, true) _ := ⟨by decide +kernel, rfl⟩
  have hsecond : Step sampleCrypto ((relayed.exec sampleCrypto).after sampleWorld) (relayed, false) _ :=
    ⟨by decide +kernel, rfl⟩
  have hrun := Run.snoc (Run.snoc (Run.nil sampleWorld) hfirst) hsecond
  obtain ⟨-, -, hmarked, -, -, hbalance⟩ := claims_once_with_consent sampleWorld_deployed hrun
  exact ⟨_, hrun, (hmarked sampleAccount).mpr (by decide), hbalance⟩

end AdvFoundry.Airdrop
