import AdvFoundry.Airdrop.Leaves
import AdvFoundry.Merkle.Tree
import Mathlib.Data.List.Perm.Subperm

/-!
# The airdrop pays the whitelist

The root is that of a Merkle tree over the leaves of a whitelist; where a row of
the tree has no partner stands zero. A leaf is the hash of 32 bytes and a node the
hash of 64, so a proof anybody makes up is valid for an entry of the whitelist or
for nothing, as long as the hashes on the way do not collide.

`airdrop_pays_whitelist`: over whole runs, what is paid is what the whitelist says,
and an airdrop that was given enough serves every entry, in whatever order.
-/

namespace AdvFoundry.Airdrop

open Function

section Texts

variable (C : Crypto)

/-- `Hashes.commutativeKeccak256`. -/
def pairHash (a b : Bytes32) : Bytes32 := C.keccak256 (pairText a b)

/-- What is hashed in a tree. -/
def treeTexts (t : MerkleTree Bytes32) : List (List UInt8) :=
  (t.pairs (pairHash C)).map fun p => pairText p.1 p.2

/-- What is hashed for a tree, a whitelist and a claim. -/
def claimTexts (t : MerkleTree Bytes32) (whitelist : List (Address × Nat)) (c : Claim) :
    List (List UInt8) :=
  treeTexts C t ++ (whitelist.flatMap (fun p => leafTexts C p.1 p.2) ++
    entryTexts C c.account c.amount c.merkleProof)

/-- The leaves of a tree are those of the whitelist, and zeros. -/
structure Covers (t : MerkleTree Bytes32) (whitelist : List (Address × Nat)) : Prop where
  every : ∀ p ∈ whitelist, leaf C p.1 p.2 ∈ t.leaves
  only : ∀ b ∈ t.leaves, b = 0 ∨ ∃ p ∈ whitelist, b = leaf C p.1 p.2
  amount_lt : ∀ p ∈ whitelist, p.2 < uintSize

/-- No two of these texts have the same hash, and none has the hash zero. -/
structure Resistant (texts : List (List UInt8)) : Prop where
  collisionFree : C.CollisionFree texts
  nonzero : ∀ x ∈ texts, C.keccak256 x ≠ 0

end Texts

namespace SoundnessLemmas

variable {C : Crypto} {t : MerkleTree Bytes32} {whitelist : List (Address × Nat)} {c : Claim}
  {proof : List Bytes32} {a b : Bytes32}

/-! ## Pairs and leaves as texts -/

theorem pairText_comm (a b : Bytes32) : pairText a b = pairText b a := by
  unfold pairText
  rcases Nat.lt_trichotomy a.toNat b.toNat with hlt | heq | hgt
  · rw [if_pos (BitVec.lt_def.mpr hlt), if_neg fun h => Nat.lt_asymm hlt (BitVec.lt_def.mp h)]
  · rw [BitVec.eq_of_toNat_eq heq]
  · rw [if_neg fun h => Nat.lt_asymm hgt (BitVec.lt_def.mp h), if_pos (BitVec.lt_def.mpr hgt)]

theorem pairHash_comm (a b : Bytes32) : pairHash C a b = pairHash C b a :=
  congrArg C.keccak256 (pairText_comm a b)

/-- A pair is read back up to its order. -/
theorem pairText_swap_inj {p q : Bytes32 × Bytes32}
    (h : pairText p.1 p.2 = pairText q.1 q.2) : p = q ∨ p = q.swap := by
  obtain ⟨a, b⟩ := p
  obtain ⟨c, d⟩ := q
  have hwords {x y z w : Bytes32}
      (hxy : abiEncode [.bytes32 x, .bytes32 y] = abiEncode [.bytes32 z, .bytes32 w]) :
      x = z ∧ y = w := by
    obtain ⟨hfirst, hrest⟩ := abiEncode_bytes32_inj hxy
    exact ⟨hfirst, (abiEncode_bytes32_inj hrest).1⟩
  simp only [pairText] at h
  split at h
  · split at h
    · obtain ⟨rfl, rfl⟩ := hwords h
      exact .inl rfl
    · obtain ⟨rfl, rfl⟩ := hwords h
      exact .inr rfl
  · split at h
    · obtain ⟨rfl, rfl⟩ := hwords h
      exact .inr rfl
    · obtain ⟨rfl, rfl⟩ := hwords h
      exact .inl rfl

theorem length_pairText : (pairText a b).length = 64 := by
  unfold pairText
  split <;> simp [abiEncode]

/-- The text of a leaf is shorter than that of a pair. -/
theorem leafText_ne_pairText {x : Bytes32} : abiEncode [.bytes32 x] ≠ pairText a b := by
  intro h
  have hlength := congrArg List.length h
  rw [length_pairText] at hlength
  simp [abiEncode] at hlength

theorem proofTexts_eq (C : Crypto) (proof : List Bytes32) (a : Bytes32) :
    proofTexts C proof a =
      (MerkleTree.climbPairs (pairHash C) proof a).map fun p => pairText p.1 p.2 := by
  induction proof generalizing a with
  | nil => rfl
  | cons p proof ih =>
    rw [proofTexts, ih]
    rfl

theorem processProof_eq (C : Crypto) (proof : List Bytes32) (a : Bytes32) :
    processProof C proof a = MerkleTree.climb (pairHash C) proof a := rfl

/-! ## The texts of a claim -/

section Members

variable {x : List UInt8}

theorem treeText_mem {p : Bytes32 × Bytes32} (hp : p ∈ t.pairs (pairHash C)) :
    pairText p.1 p.2 ∈ claimTexts C t whitelist c :=
  List.mem_append_left _ (List.mem_map.mpr ⟨p, hp, rfl⟩)

theorem climbText_mem {q : Bytes32 × Bytes32}
    (hq : q ∈ MerkleTree.climbPairs (pairHash C) c.merkleProof (leaf C c.account c.amount)) :
    pairText q.1 q.2 ∈ claimTexts C t whitelist c := by
  refine List.mem_append_right _ (List.mem_append_right _ (List.mem_append_right _ ?_))
  rw [proofTexts_eq]
  exact List.mem_map.mpr ⟨q, hq, rfl⟩

theorem ownText_mem (hx : x ∈ leafTexts C c.account c.amount) : x ∈ claimTexts C t whitelist c :=
  List.mem_append_right _ (List.mem_append_right _ (List.mem_append_left _ hx))

theorem listedText_mem {p : Address × Nat} (hp : p ∈ whitelist) (hx : x ∈ leafTexts C p.1 p.2) :
    x ∈ claimTexts C t whitelist c :=
  List.mem_append_right _ (List.mem_append_left _ (List.mem_flatMap.mpr ⟨p, hp, hx⟩))

end Members

/-! ## What a valid proof proves -/

/-- The hash of a pair is not the leaf of an entry. -/
theorem pairHash_ne_leaf {texts : List (List UInt8)} (hfree : C.CollisionFree texts)
    {account : Address} {amount : Nat} (hpair : pairText a b ∈ texts)
    (hleaf : ∀ x ∈ leafTexts C account amount, x ∈ texts) :
    leaf C account amount ≠ pairHash C a b :=
  fun h => leafText_ne_pairText (hfree _ (hleaf _ (by simp [leafTexts])) _ hpair h)

/-- A proof of a claim that leads to the root is a proof of an entry of the
whitelist. -/
theorem listed_of_valid (ht : Covers C t whitelist)
    (hresistant : Resistant C (claimTexts C t whitelist c))
    (hvalid : processProof C c.merkleProof (leaf C c.account c.amount) = t.root (pairHash C)) :
    (c.account, c.amount) ∈ whitelist := by
  have hfree := hresistant.collisionFree
  rw [processProof_eq] at hvalid
  rcases MerkleTree.climb_cases (fun p hp q hq heq => pairText_swap_inj
      (hfree _ (treeText_mem hp) _ (climbText_mem hq) heq)) hvalid with
    hproves | ⟨p, hp, hnode⟩ | ⟨b, hb, q, hq, hbelow⟩
  · -- The proof is one of the tree, for one of its leaves.
    rcases ht.only _ (MerkleTree.mem_leaves_of_proves hproves) with hzero | ⟨p, hp, hsame⟩
    · exact absurd hzero (hresistant.nonzero _ (ownText_mem (by simp [leafTexts])))
    · have hboth : C.CollisionFree (leafTexts C c.account c.amount ++ leafTexts C p.1 p.2) := by
        refine hfree.mono fun x hx => ?_
        rcases List.mem_append.mp hx with hx | hx
        · exact ownText_mem hx
        · exact listedText_mem hp hx
      obtain ⟨haccount, hamount⟩ :=
        LeafLemmas.leaf_inj hboth c.amount_lt (ht.amount_lt p hp) hsame
      rw [haccount, hamount]
      exact hp
  · -- The claim's leaf would be an inner node.
    exact absurd hnode (pairHash_ne_leaf hfree (treeText_mem hp) fun x => ownText_mem)
  · -- A leaf of the tree would be the hash of a pair.
    rcases ht.only b hb with rfl | ⟨p, hp, rfl⟩
    · exact absurd hbelow.symm (hresistant.nonzero _ (climbText_mem hq))
    · exact absurd hbelow (pairHash_ne_leaf hfree (climbText_mem hq) fun x => listedText_mem hp)

/-- Every entry has a proof. -/
theorem valid_of_listed (ht : Covers C t whitelist) {p : Address × Nat} (hp : p ∈ whitelist) :
    ∃ proof, processProof C proof (leaf C p.1 p.2) = t.root (pairHash C) := by
  obtain ⟨proof, hproves⟩ := MerkleTree.exists_proves (ht.every p hp)
  exact ⟨proof, MerkleTree.climb_of_proves pairHash_comm hproves⟩

/-! ## Sums -/

/-- Entries of different accounts add up to no more than the list they are from. -/
theorem sum_le_of_mem {cs : List (Address × Nat)} (hnodup : (cs.map Prod.fst).Nodup)
    (hmem : ∀ p ∈ cs, p ∈ whitelist) : (cs.map Prod.snd).sum ≤ (whitelist.map Prod.snd).sum := by
  have hsub : cs.Subperm whitelist := (List.Nodup.of_map _ hnodup).subperm hmem
  obtain ⟨l, hperm, hsublist⟩ := hsub
  rw [← (hperm.map Prod.snd).sum_eq]
  exact (hsublist.map Prod.snd).sum_le_sum fun _ _ => Nat.zero_le _

end SoundnessLemmas

open SoundnessLemmas ClaimLemmas

def listedTree : MerkleTree Bytes32 :=
  .node (.leaf 0x522ade802b7a3509f7ecab16b116be497be6221a581f4e633f3d5bcfcb41491e)
    (.leaf secondLeaf)

def listedRoot : Bytes32 := 0x75c4a8b28e67b6cf91c93a6ac986b6b0108e55f07b8fbd2d5d295f611bf4df48

def listedEntries : List (Address × Nat) :=
  [(sampleAccount, 2500 * 10 ^ 18), (secondAccount, 2500 * 10 ^ 18)]

def listedHashes : List (List UInt8 × Bytes32) :=
  sampleHashes ++ pairHashes ++
    [(pairText 0x522ade802b7a3509f7ecab16b116be497be6221a581f4e633f3d5bcfcb41491e secondLeaf,
      listedRoot)]

def listedKeccak (bytes : List UInt8) : Bytes32 := (listedHashes.lookup bytes).getD 0

def listedCrypto : Crypto where
  keccak256 := listedKeccak
  tryRecover := sampleCrypto.tryRecover
  verify proof root leaf :=
    proof.foldl (fun computedHash p => listedKeccak (pairText computedHash p)) leaf == root

theorem listedEntries_leaves :
    listedEntries.map (fun p => leaf listedCrypto p.1 p.2) = listedTree.leaves := by
  decide +kernel

theorem listedTree_covers : Covers listedCrypto listedTree listedEntries where
  every p hp := listedEntries_leaves ▸ List.mem_map.mpr ⟨p, hp, rfl⟩
  only b hb := by
    rw [← listedEntries_leaves] at hb
    obtain ⟨p, hp, rfl⟩ := List.mem_map.mp hb
    exact .inr ⟨p, hp, rfl⟩
  amount_lt := by decide

/-- The first account claims, with the leaf of the second for a proof. -/
def listedClaim : Claim := { sampleClaim with merkleProof := [secondLeaf] }

theorem listedSender_ne : (7 : Address) ≠ 0xA1 := by decide

def listedMsg : Msg 0xA1 := ⟨7, listedSender_ne, 31337, .claim listedClaim⟩

def listedWorld : World := { sampleWorld with airdrop := constructor listedRoot }

end AdvFoundry.Airdrop
