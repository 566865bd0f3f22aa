import AdvFoundry.Airdrop.Claims
import AdvFoundry.Airdrop.Script

/-!
# The leaves of the script and of the contract

The script hashes the encoding of an array of two words without its head, and the
contract the encoding of two values: the head is the offset and the length, 64
bytes that the library cuts off, and the rest is the same words.

The leaf of an account and an amount determines both, and a proof determines the
leaf it is for. So a proof that serves one entry serves no other
(`leaves_agree`).
-/

namespace AdvFoundry.Airdrop

/-- The file lists these accounts and amounts, in this order. -/
structure Lists (V : Vm) (elements : String) (whitelist : List (Address × Nat)) : Prop where
  types : V.readStringArray elements ".types" = some ["address", "uint"]
  count : V.readUint elements ".count" = some whitelist.length
  account : ∀ i (h : i < whitelist.length),
    V.readAddress elements (MerkleScript.getValuesByIndex V i 0) = some whitelist[i].1
  amount : ∀ i (h : i < whitelist.length),
    (V.readString elements (MerkleScript.getValuesByIndex V i 1)).bind V.parseUint =
      some whitelist[i].2
  amount_lt : ∀ p ∈ whitelist, p.2 < uintSize

/-- What the script relies on in `murky`. -/
structure Murky.Documented (M : Murky) : Prop where
  compareStrings : ∀ a b, M.compareStrings a b = decide (a = b)
  ltrim64 : ∀ bytes, M.ltrim64 bytes = bytes.drop 64

/-! ## `MerkleProof` -/

section Proofs

variable (C : Crypto)

/-- What `Hashes.commutativeKeccak256` hashes: the smaller hash first. -/
def pairText (a b : Bytes32) : List UInt8 :=
  if a < b then abiEncode [.bytes32 a, .bytes32 b] else abiEncode [.bytes32 b, .bytes32 a]

/-- `MerkleProof.processProof`. -/
def processProof (proof : List Bytes32) (leaf : Bytes32) : Bytes32 :=
  proof.foldl (fun computedHash p => C.keccak256 (pairText computedHash p)) leaf

/-- What it hashes. -/
def proofTexts : List Bytes32 → Bytes32 → List (List UInt8)
  | [], _ => []
  | p :: proof, leaf => pairText leaf p :: proofTexts proof (C.keccak256 (pairText leaf p))

/-- What is hashed to a leaf. -/
def leafTexts (account : Address) (amount : Nat) : List (List UInt8) :=
  [abiEncode [.address account, .uint256 amount],
    abiEncode [.bytes32 (C.keccak256 (abiEncode [.address account, .uint256 amount]))]]

/-- What is hashed to check a proof for an entry. -/
def entryTexts (account : Address) (amount : Nat) (proof : List Bytes32) : List (List UInt8) :=
  leafTexts C account amount ++ proofTexts C proof (leaf C account amount)

end Proofs

namespace LeafLemmas

variable {C : Crypto} {V : Vm} {M : Murky} {account account' : Address} {amount amount' : Nat}

/-! ## A leaf determines its entry -/

theorem address_lt (a : Address) : AbiWord.toNat (.address a) < 2 ^ 256 :=
  a.val.isLt.trans (by decide)

/-- Without a collision on the way, equal leaves are leaves of one entry. -/
theorem leaf_inj
    (hfree : C.CollisionFree (leafTexts C account amount ++ leafTexts C account' amount'))
    (hamount : amount < uintSize) (hamount' : amount' < uintSize)
    (h : leaf C account amount = leaf C account' amount') :
    account = account' ∧ amount = amount' := by
  have houter := hfree _ (by simp [leafTexts]) _ (by simp [leafTexts]) h
  have hinner := hfree _ (by simp [leafTexts]) _ (by simp [leafTexts])
    (abiEncode_bytes32_inj houter).1
  obtain ⟨haccount, hrest⟩ := abiEncode_cons_inj (address_lt account) (address_lt account') hinner
  obtain ⟨hsame, -⟩ :=
    @abiEncode_cons_inj (.uint256 amount) (.uint256 amount') [] [] hamount hamount' hrest
  exact ⟨congrArg Address.mk (Fin.ext haccount), hsame⟩

theorem pairText_inj {a b p : Bytes32} (h : pairText a p = pairText b p) : a = b := by
  unfold pairText at h
  split at h
  · split at h
    · exact (abiEncode_bytes32_inj h).1
    · obtain ⟨hap, hrest⟩ := abiEncode_bytes32_inj h
      exact hap.trans (abiEncode_bytes32_inj hrest).1
  · split at h
    · obtain ⟨hpb, hrest⟩ := abiEncode_bytes32_inj h
      exact (abiEncode_bytes32_inj hrest).1.trans hpb
    · exact (abiEncode_bytes32_inj (abiEncode_bytes32_inj h).2).1

/-- Without a collision on the way, a proof leads two leaves to one root only when
they are the same. -/
theorem processProof_inj {proof : List Bytes32} {x y : Bytes32}
    (hfree : C.CollisionFree (proofTexts C proof x ++ proofTexts C proof y))
    (h : processProof C proof x = processProof C proof y) : x = y := by
  induction proof generalizing x y with
  | nil => exact h
  | cons p proof ih =>
    have hnext : C.keccak256 (pairText x p) = C.keccak256 (pairText y p) := by
      refine ih (hfree.mono fun z hz => ?_) h
      rcases List.mem_append.mp hz with hz | hz
      · exact List.mem_append_left _ (List.mem_cons_of_mem _ hz)
      · exact List.mem_append_right _ (List.mem_cons_of_mem _ hz)
    exact pairText_inj (hfree _ (by simp [proofTexts]) _ (by simp [proofTexts]) hnext)

/-- Without a collision on the way, a proof valid for two entries shows that they
are one. -/
theorem entry_inj {proof : List Bytes32}
    (hfree : C.CollisionFree
      (entryTexts C account amount proof ++ entryTexts C account' amount' proof))
    (hamount : amount < uintSize) (hamount' : amount' < uintSize)
    (h : processProof C proof (leaf C account amount) =
      processProof C proof (leaf C account' amount')) : account = account' ∧ amount = amount' := by
  have hleafs : C.CollisionFree (leafTexts C account amount ++ leafTexts C account' amount') := by
    refine hfree.mono fun x hx => ?_
    simp only [entryTexts, List.mem_append] at hx ⊢
    exact hx.imp .inl .inl
  have hproofs : C.CollisionFree (proofTexts C proof (leaf C account amount) ++
      proofTexts C proof (leaf C account' amount')) := by
    refine hfree.mono fun x hx => ?_
    simp only [entryTexts, List.mem_append] at hx ⊢
    exact hx.imp .inr .inr
  exact leaf_inj hleafs hamount hamount' (processProof_inj hproofs h)

/-! ## The script computes the leaves -/

/-- The head of an encoded array is 64 bytes. -/
theorem abiEncodeArray_drop (data : List Bytes32) :
    (abiEncodeArray data).drop 64 = abiEncode (data.map .bytes32) := by
  unfold abiEncodeArray
  exact List.drop_left' (by simp)

/-- The words of a row are those of its account and its amount. -/
theorem dataLeaf_eq (hM : M.Documented) (hamount : amount < uintSize) :
    MerkleScript.dataLeaf C M [BitVec.ofNat 256 account.val, BitVec.ofNat 256 amount] =
      leaf C account amount := by
  have haccount : (BitVec.ofNat 256 account.val).toNat = account.val :=
    BitVec.toNat_ofNat _ _ ▸ Nat.mod_eq_of_lt (address_lt account)
  have hword : (BitVec.ofNat 256 amount).toNat = amount :=
    BitVec.toNat_ofNat _ _ ▸ Nat.mod_eq_of_lt hamount
  have htexts : abiEncode ([BitVec.ofNat 256 account.val, BitVec.ofNat 256 amount].map .bytes32) =
      abiEncode [.address account, .uint256 amount] := by
    simp only [List.map_cons, List.map_nil, abiEncode_cons, AbiWord.toNat, haccount, hword]
  rw [MerkleScript.dataLeaf, hM.ltrim64, abiEncodeArray_drop, htexts]
  rfl

/-- A row gives the words and the texts of its account and its amount. -/
theorem readRow_eq {elements : String} {whitelist : List (Address × Nat)} (hM : M.Documented)
    (hlist : Lists V elements whitelist) {s : MerkleScript} (helements : s.elements = elements)
    (htypes : s.types = ["address", "uint"]) {i : Nat} (hi : i < whitelist.length) :
    s.readRow V M i =
      .ok [(BitVec.ofNat 256 whitelist[i].1.val, V.toStringAddress whitelist[i].1),
        (BitVec.ofNat 256 whitelist[i].2, V.toStringUint whitelist[i].2)] := by
  have haccount := hlist.account i hi
  obtain ⟨text, htext, hparse⟩ := Option.bind_eq_some_iff.mp (hlist.amount i hi)
  subst helements
  have hfirst : s.readValue V M i 0 "address" =
      .ok (BitVec.ofNat 256 whitelist[i].1.val, V.toStringAddress whitelist[i].1) := by
    rw [MerkleScript.readValue, hM.compareStrings, if_pos (by decide), haccount]
    rfl
  have hsecond : s.readValue V M i 1 "uint" =
      .ok (BitVec.ofNat 256 whitelist[i].2, V.toStringUint whitelist[i].2) := by
    rw [MerkleScript.readValue, hM.compareStrings, hM.compareStrings, if_neg (by decide),
      if_pos (by decide), htext]
    simp only [Result.bind_ok, Result.ofOption_ok]
    exact ⟨_, rfl, _, hparse, rfl⟩
  rw [MerkleScript.readRow, htypes]
  simp only [List.zipIdx_cons, List.zipIdx_nil, List.mapM_cons, List.mapM_nil, hfirst, hsecond,
    Result.bind_ok, Result.pure_ok]
  exact ⟨_, rfl, _, ⟨_, rfl, _, rfl, rfl⟩, rfl⟩

/-- A pass of the first loop writes the contract's leaf. -/
theorem readStep_eq {whitelist : List (Address × Nat)} {s₀ s : MerkleScript} (hM : M.Documented)
    (hlist : Lists V s₀.elements whitelist) (helements : s.elements = s₀.elements)
    (htypes : s.types = ["address", "uint"]) {i : Nat} (hi : i < whitelist.length) :
    ∃ s', MerkleScript.readStep C V M s i = .ok s' ∧ s'.elements = s.elements ∧
      s'.types = s.types ∧ s'.leafs = s.leafs.set i (leaf C whitelist[i].1 whitelist[i].2) := by
  have hrow := readRow_eq hM hlist helements htypes hi
  have hleaf := @dataLeaf_eq C M whitelist[i].1 whitelist[i].2 hM
    (hlist.amount_lt _ (List.getElem_mem hi))
  rw [MerkleScript.readStep, hrow]
  refine ⟨_, rfl, rfl, rfl, ?_⟩
  rw [← hleaf]
  rfl

/-- A write to the first entry that is still at its default. -/
theorem set_fill {α : Type} {done l : List α} (hle : done.length < l.length) (a : α) :
    (done ++ l.drop done.length).set done.length a = done ++ [a] ++ l.drop (done.length + 1) := by
  rw [List.set_append_right _ _ (Nat.le_refl _), Nat.sub_self, List.drop_eq_getElem_cons hle,
    List.set_cons_zero, List.append_assoc]
  rfl

/-- After `k` passes the first `k` leaves are there. -/
theorem readRows_upto {whitelist : List (Address × Nat)} {s₀ : MerkleScript} (hM : M.Documented)
    (hlist : Lists V s₀.elements whitelist) (htypes : s₀.types = ["address", "uint"])
    (hleafs : s₀.leafs.length = whitelist.length) {k : Nat} (hk : k ≤ whitelist.length) :
    ∃ s, (List.range k).foldlM (MerkleScript.readStep C V M) s₀ = .ok s ∧
      s.elements = s₀.elements ∧ s.types = ["address", "uint"] ∧
      s.leafs = (whitelist.take k).map (fun p => leaf C p.1 p.2) ++ s₀.leafs.drop k := by
  induction k with
  | zero => exact ⟨s₀, rfl, rfl, htypes, rfl⟩
  | succ k ih =>
    obtain ⟨s, hs, helements, htypes', hsofar⟩ := ih (Nat.le_of_succ_le hk)
    have hi : k < whitelist.length := hk
    obtain ⟨s', hs', helements', htypes'', hwritten⟩ :=
      @readStep_eq C V M whitelist s₀ s hM hlist helements htypes' k hi
    have hlen : ((whitelist.take k).map fun p => leaf C p.1 p.2).length = k := by
      rw [List.length_map, List.length_take, Nat.min_eq_left hi.le]
    have hfill := set_fill (hlen.trans_lt (hi.trans_eq hleafs.symm))
      (leaf C whitelist[k].1 whitelist[k].2)
    rw [hlen] at hfill
    refine ⟨s', ?_, helements'.trans helements, htypes''.trans htypes', ?_⟩
    · rw [List.range_succ, List.foldlM_append, hs]
      simp only [List.foldlM_cons, List.foldlM_nil, Result.bind_ok, Result.pure_ok]
      exact ⟨s, rfl, s', hs', rfl⟩
    · rw [hwritten, hsofar, hfill, List.take_succ_eq_append_getElem hi, List.map_append]
      rfl

/-- The first loop gives the leaf of every entry. -/
theorem readRows_leafs (C : Crypto) {elements : String} {whitelist : List (Address × Nat)}
    (hM : M.Documented) (hlist : Lists V elements whitelist) :
    ∃ s₀ s, MerkleScript.init V elements = .ok s₀ ∧ s₀.readRows C V M = .ok s ∧
      s.leafs = whitelist.map fun p => leaf C p.1 p.2 := by
  let s₀ : MerkleScript :=
    { elements := elements
      types := ["address", "uint"]
      count := whitelist.length
      leafs := List.replicate whitelist.length 0
      inputs := List.replicate whitelist.length ""
      outputs := List.replicate whitelist.length ""
      output := "" }
  have hinit : MerkleScript.init V elements = .ok s₀ := by
    rw [MerkleScript.init, hlist.types, hlist.count]
    rfl
  obtain ⟨s, hrows, -, -, hleafs⟩ := @readRows_upto C V M whitelist s₀ hM hlist rfl
    List.length_replicate whitelist.length (Nat.le_refl _)
  refine ⟨s₀, s, hinit, hrows, ?_⟩
  rw [hleafs, List.take_length, List.drop_eq_nil_of_le (by simp [s₀]), List.append_nil]

/-- The second loop leaves the leaves alone. -/
theorem writeStep_leafs {i : Nat} {s s' : MerkleScript}
    (h : MerkleScript.writeStep V M s i = .ok s') : s'.leafs = s.leafs := by
  simp only [MerkleScript.writeStep, Result.bind_ok, Result.pure_ok] at h
  obtain ⟨_, -, _, -, _, -, _, -, rfl⟩ := h
  rfl

theorem writeSteps_leafs {is : List Nat} {s s' : MerkleScript}
    (h : is.foldlM (MerkleScript.writeStep V M) s = .ok s') : s'.leafs = s.leafs := by
  induction is generalizing s with
  | nil =>
    cases h
    rfl
  | cons i is ih =>
    rw [List.foldlM_cons, Result.bind_ok] at h
    obtain ⟨s₁, hfirst, hrest⟩ := h
    exact (ih hrest).trans (writeStep_leafs hfirst)

theorem run_leafs {s s₁ s' : MerkleScript} (hrows : s.readRows C V M = .ok s₁)
    (h : s.run C V M = .ok s') : s'.leafs = s₁.leafs := by
  simp only [MerkleScript.run, Result.bind_ok, Result.pure_ok, hrows, Except.ok.injEq] at h
  obtain ⟨_, rfl, s₂, hwrite, rfl⟩ := h
  have hleafs := writeSteps_leafs hwrite
  exact hleafs

end LeafLemmas

open LeafLemmas ClaimLemmas

/-- For every file that lists a whitelist: the first loop of the script returns with
the leaf of the contract for every entry, in order, and these are the leaves of
every run that returns. Without a hash collision on the way, different entries
have different leaves; and a proof that is valid for one entry is valid for no
claim of another. -/
theorem leaves_agree {C : Crypto} {V : Vm} {M : Murky} (hM : M.Documented)
    (hverify : ∀ proof root leaf, C.verify proof root leaf = (processProof C proof leaf == root))
    {elements : String} {whitelist : List (Address × Nat)} (hlist : Lists V elements whitelist) :
    (∃ s₀ s, MerkleScript.init V elements = .ok s₀ ∧ s₀.readRows C V M = .ok s ∧
      s.leafs = whitelist.map (fun p => leaf C p.1 p.2) ∧
      ∀ s', s₀.run C V M = .ok s' → s'.leafs = s.leafs) ∧
    ∀ p : Address × Nat, p.2 < uintSize →
      (∀ q : Address × Nat, q.2 < uintSize → p ≠ q →
        C.CollisionFree (leafTexts C p.1 p.2 ++ leafTexts C q.1 q.2) →
        leaf C p.1 p.2 ≠ leaf C q.1 q.2) ∧
      ∀ (c : Claim) (root : Bytes32), p ≠ (c.account, c.amount) →
        C.CollisionFree (entryTexts C p.1 p.2 c.merkleProof ++
          entryTexts C c.account c.amount c.merkleProof) →
        C.verify c.merkleProof root (leaf C p.1 p.2) = true →
        C.verify c.merkleProof root (leaf C c.account c.amount) = false ∧
        ∀ chainid this w w', w.airdrop.merkleRoot = root →
          claim C chainid this c w ≠ .ok ((), w') := by
  refine ⟨?_, fun p hp => ⟨fun q hq hne hfree heq => ?_, fun c root hne hfree hvalid => ?_⟩⟩
  · obtain ⟨s₀, s, hinit, hrows, hleafs⟩ := readRows_leafs C hM hlist
    exact ⟨s₀, s, hinit, hrows, hleafs, fun s' hrun => run_leafs hrows hrun⟩
  · obtain ⟨haccount, hamount⟩ := leaf_inj hfree hp hq heq
    exact hne (Prod.ext haccount hamount)
  · have hinvalid : C.verify c.merkleProof root (leaf C c.account c.amount) = false := by
      by_contra hboth
      rw [Bool.not_eq_false, hverify, beq_iff_eq] at hboth
      rw [hverify, beq_iff_eq] at hvalid
      obtain ⟨haccount, hamount⟩ := entry_inj hfree hp c.amount_lt (hvalid.trans hboth.symm)
      exact hne (Prod.ext haccount hamount)
    refine ⟨hinvalid, fun chainid this w w' hroot hok => ?_⟩
    obtain ⟨-, hconsented, -⟩ := claim_ok.mp hok
    have hlisted := hconsented.listed
    rw [hroot, hinvalid] at hlisted
    cases hlisted

/-! ### Two entries

The first two entries of `script/target/input.json`, in a file of their own. The
hashes are the real ones. -/

def firstAccount : Address := 0x2a3D206626337FcAC4C5Cfc0f9fBe18F9D900f47
def secondAccount : Address := 0xAb5801a7D398351b8bE11C439e05C5B3259aeC9B

def pairList : List (Address × Nat) :=
  [(firstAccount, 2500 * 10 ^ 18), (secondAccount, 2500 * 10 ^ 18)]

def firstLeaf : Bytes32 := 0x4481497c252c61b2cfeed31c39ca8c55d71f127471f1f633dac36407dcf0b387
def secondLeaf : Bytes32 := 0x9e10faf86d92c4c65f81ac54ef2a27cc0fdf6bfea6ba4b1df5955e47f187115b
def pairRoot : Bytes32 := 0x3a4ccb4bcc1aadaa183a3de69137a8a4a35dcf0b446c415abed4824b01642b29

def pairHashes : List (List UInt8 × Bytes32) :=
  [(abiEncode [.address firstAccount, .uint256 (2500 * 10 ^ 18)],
      0xab2010eb3bb75391d7e6f8e712efff48e945eeeffda16b2f980e5db8cddc1330),
    (abiEncode [.bytes32 0xab2010eb3bb75391d7e6f8e712efff48e945eeeffda16b2f980e5db8cddc1330],
      firstLeaf),
    (abiEncode [.address secondAccount, .uint256 (2500 * 10 ^ 18)],
      0x1ebb75293596b756121a49bc219cbdf20f072a984d5d1767692c2cd745e77e9f),
    (abiEncode [.bytes32 0x1ebb75293596b756121a49bc219cbdf20f072a984d5d1767692c2cd745e77e9f],
      secondLeaf),
    (pairText firstLeaf secondLeaf, pairRoot),
    (pairText secondLeaf secondLeaf,
      0xc0dfdbcd7d688d38cb29c471c60ee16f0723b178c47083c706d5298546316380)]

def pairKeccak (bytes : List UInt8) : Bytes32 := (pairHashes.lookup bytes).getD 0

def pairCrypto : Crypto where
  keccak256 := pairKeccak
  tryRecover _ _ _ _ := 0
  verify proof root leaf :=
    proof.foldl (fun computedHash p => pairKeccak (pairText computedHash p)) leaf == root

/-- The file, and what reading it gives. -/
def pairFile : String :=
  "\x7b\"types\": [\"address\", \"uint\"], \"count\": 2, \"values\": \x7b" ++
    "\"0\": \x7b\"0\": \"0x2a3D206626337FcAC4C5Cfc0f9fBe18F9D900f47\", " ++
    "\"1\": \"2500000000000000000000\"\x7d, " ++
    "\"1\": \x7b\"0\": \"0xAb5801a7D398351b8bE11C439e05C5B3259aeC9B\", " ++
    "\"1\": \"2500000000000000000000\"\x7d\x7d\x7d"

def pairVm : Vm where
  toStringUint := Nat.repr
  toStringAddress a :=
    if a = firstAccount then "0x2a3D206626337FcAC4C5Cfc0f9fBe18F9D900f47"
    else "0xAb5801a7D398351b8bE11C439e05C5B3259aeC9B"
  toStringBytes32 b := "0x" ++ b.toHex
  parseUint text :=
    if text.toList.all Char.isDigit then some (Nat.ofDigitChars 10 text.toList 0) else none
  readStringArray json path :=
    if json = pairFile ∧ path = ".types" then some ["address", "uint"] else none
  readUint json path := if json = pairFile ∧ path = ".count" then some 2 else none
  readString json path :=
    if json = pairFile ∧ (path = ".values.0.1" ∨ path = ".values.1.1") then
      some "2500000000000000000000"
    else none
  readAddress json path :=
    if json = pairFile ∧ path = ".values.0.0" then some firstAccount
    else if json = pairFile ∧ path = ".values.1.0" then some secondAccount
    else none

def pairMurky : Murky where
  compareStrings a b := decide (a = b)
  ltrim64 := List.drop 64
  getProof leafs i :=
    match leafs with
    | [a, b] => some [if i = 0 then b else a]
    | _ => none
  getRoot leafs :=
    match leafs with
    | [a, b] => some (pairKeccak (pairText a b))
    | _ => none
  stringArrayToString texts := "[\"" ++ "\",\"".intercalate texts ++ "\"]"
  bytes32ArrayToString words :=
    "[\"" ++ "\",\"".intercalate (words.map fun b => "0x" ++ b.toHex) ++ "\"]"
  stringArrayToArrayString texts := "[" ++ ",".intercalate texts ++ "]"

theorem pairFile_lists : Lists pairVm pairFile pairList where
  types := by decide +kernel
  count := by decide +kernel
  account := by decide +kernel
  amount := by decide +kernel
  amount_lt := by decide

/-- The second account makes a claim with the proof of the first. -/
def borrowedProof : Claim where
  account := secondAccount
  amount := 2500 * 10 ^ 18
  amount_lt := sampleClaim.amount_lt
  merkleProof := [secondLeaf]
  v := 27
  r := 0
  s := 0

/-- The leaves are those in `script/target/output.json`, and the proof serves the
first account only. -/
theorem leaves_agree_two_entries :
    (∃ s₀ s, MerkleScript.init pairVm pairFile = .ok s₀ ∧
      s₀.readRows pairCrypto pairVm pairMurky = .ok s ∧ s.leafs = [firstLeaf, secondLeaf]) ∧
    firstLeaf ≠ secondLeaf ∧
    pairCrypto.verify [secondLeaf] pairRoot firstLeaf = true ∧
    pairCrypto.verify [secondLeaf] pairRoot secondLeaf = false ∧
    ∀ chainid this w w', w.airdrop.merkleRoot = pairRoot →
      claim pairCrypto chainid this borrowedProof w ≠ .ok ((), w') := by
  obtain ⟨⟨s₀, s, hinit, hrows, hleafs, -⟩, hentries⟩ := @leaves_agree pairCrypto pairVm pairMurky
    ⟨fun _ _ => rfl, fun _ => rfl⟩ (fun _ _ _ => rfl) pairFile pairList pairFile_lists
  have hfirst : leaf pairCrypto firstAccount (2500 * 10 ^ 18) = firstLeaf := by decide +kernel
  have hsecond : leaf pairCrypto secondAccount (2500 * 10 ^ 18) = secondLeaf := by decide +kernel
  have hvalid : pairCrypto.verify [secondLeaf] pairRoot firstLeaf = true := by decide +kernel
  obtain ⟨hdiffer, hproofs⟩ := hentries (firstAccount, 2500 * 10 ^ 18) (by decide)
  have hne := hdiffer (secondAccount, 2500 * 10 ^ 18) (by decide) (by decide) (by decide +kernel)
  obtain ⟨hinvalid, hrefused⟩ := hproofs borrowedProof pairRoot (by decide) (by decide +kernel)
    (hfirst ▸ hvalid)
  refine ⟨⟨s₀, s, hinit, hrows, ?_⟩, ?_, hvalid, ?_, hrefused⟩
  · rw [hleafs]
    exact congrArg₂ (fun a b => [a, b]) hfirst hsecond
  · rw [← hfirst, ← hsecond]
    exact hne
  · rw [← hsecond]
    exact hinvalid

end AdvFoundry.Airdrop
