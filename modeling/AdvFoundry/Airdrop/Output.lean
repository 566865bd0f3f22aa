import AdvFoundry.Airdrop.Soundness
import AdvFoundry.Json.Grammar

/-!
# The file of proofs

`MakeMerkle.run` writes one entry for each row of the whitelist file: its values, its
proof, the root and its leaf. What it writes is a JSON array of these entries, in
order, and the contract with this root takes the proof of each entry for this entry
and for nothing else (`output_serves_whitelist`).
-/

namespace AdvFoundry.Airdrop

/-- `Merkle` hashes level by level, with zero next to an odd one out, and reads the proofs
off the levels. It refuses a single leaf. -/
structure Murky.Builds (C : Crypto) (M : Murky) : Prop where
  getRoot : ∀ data, 2 ≤ data.length →
    M.getRoot data = some ((MerkleTree.build 0 data).root (pairHash C))
  getProof : ∀ data i, 2 ≤ data.length → i < data.length →
    M.getProof data i = some (MerkleTree.siblings (pairHash C) 0 data i)

/-- The leaves of a whitelist. -/
def whitelistLeafs (C : Crypto) (whitelist : List (Address × Nat)) : List Bytes32 :=
  whitelist.map fun p => leaf C p.1 p.2

/-- Their proofs, in order. -/
def whitelistProofs (C : Crypto) (whitelist : List (Address × Nat)) : List (List Bytes32) :=
  (List.range whitelist.length).map
    (MerkleTree.siblings (pairHash C) 0 (whitelistLeafs C whitelist))

/-- `ScriptHelper` writes JSON arrays: of strings, of words, and of texts that are JSON
already. -/
structure Murky.WritesArrays (V : Vm) (M : Murky) : Prop where
  strings : ∀ (texts : List String) rest, (∀ s ∈ texts, ∀ c ∈ s.toList, Json.isPlain c = true) →
    Json.Reads ((M.stringArrayToString texts).toList ++ rest)
      (.array (texts.map fun s => .string s.toList)) rest
  words : ∀ (words : List Bytes32) rest,
    Json.Reads ((M.bytes32ArrayToString words).toList ++ rest)
      (.array (words.map fun b => .string (V.toStringBytes32 b).toList)) rest
  values : ∀ (texts : List String) (vs : List Json) rest,
    List.Forall₂ (fun s v => ∀ rest, Json.Reads (s.toList ++ rest) v rest) texts vs →
    Json.Reads ((M.stringArrayToArrayString texts).toList ++ rest) (.array vs) rest

/-- No character that the cheat codes write needs an escape. -/
structure Vm.WritesPlain (V : Vm) (whitelist : List (Address × Nat)) : Prop where
  account : ∀ p ∈ whitelist, ∀ c ∈ (V.toStringAddress p.1).toList, Json.isPlain c = true
  amount : ∀ p ∈ whitelist, ∀ c ∈ (V.toStringUint p.2).toList, Json.isPlain c = true
  word : ∀ b, ∀ c ∈ (V.toStringBytes32 b).toList, Json.isPlain c = true

section Entries

variable (C : Crypto) (V : Vm)

/-- The texts of a row. -/
def rowTexts (p : Address × Nat) : List String := [V.toStringAddress p.1, V.toStringUint p.2]

/-- The entry of a row. -/
def outputEntry (root : Bytes32) (p : Address × Nat) (proof : List Bytes32) : Json :=
  .object
    [("inputs".toList, .array ((rowTexts V p).map fun s => .string s.toList)),
      ("proof".toList, .array (proof.map fun b => .string (V.toStringBytes32 b).toList)),
      ("root".toList, .string (V.toStringBytes32 root).toList),
      ("leaf".toList, .string (V.toStringBytes32 (leaf C p.1 p.2)).toList)]

end Entries

namespace OutputLemmas

open Json

variable {C : Crypto} {V : Vm} {M : Murky} {whitelist : List (Address × Nat)}

/-! ## One entry -/

/-- The text of an entry. -/
def entryText (C : Crypto) (V : Vm) (M : Murky) (root : Bytes32) (p : Address × Nat)
    (proof : List Bytes32) : String :=
  MerkleScript.generateJsonEntries (M.stringArrayToString (rowTexts V p))
    (M.bytes32ArrayToString proof) (V.toStringBytes32 root) (V.toStringBytes32 (leaf C p.1 p.2))

/-- It is read as the entry. -/
theorem reads_entry (hwrites : M.WritesArrays V) (hplain : V.WritesPlain whitelist)
    {p : Address × Nat} (hp : p ∈ whitelist) (proof : List Bytes32) (root : Bytes32)
    (rest : List Char) :
    Reads ((entryText C V M root p proof).toList ++ rest) (outputEntry C V root p proof) rest := by
  have hbrace : "\x7b".toList = ['{'] := by decide
  have hinputs : "\"inputs\":".toList = '"' :: ("inputs".toList ++ ['"', ':']) := by decide
  have hcomma : ",".toList = [','] := by decide
  have hproof : "\"proof\":".toList = '"' :: ("proof".toList ++ ['"', ':']) := by decide
  have hroot : "\"root\":\"".toList = '"' :: ("root".toList ++ ['"', ':', '"']) := by decide
  have hnext : "\",".toList = ['"', ','] := by decide
  have hleaf : "\"leaf\":\"".toList = '"' :: ("leaf".toList ++ ['"', ':', '"']) := by decide
  have hquote : "\"".toList = ['"'] := by decide
  have hend : "\x7d".toList = ['}'] := by decide
  have hkeys : ∀ k ∈ ["inputs", "proof", "root", "leaf"], k.toList.all isPlain = true := by decide
  have hkey (k : String) (hk : k ∈ ["inputs", "proof", "root", "leaf"]) :
      ∀ c ∈ k.toList, isPlain c = true :=
    List.all_eq_true.mp (hkeys k hk)
  have htexts : ∀ s ∈ rowTexts V p, ∀ c ∈ s.toList, isPlain c = true := by
    intro s hs
    rcases List.mem_pair.mp hs with rfl | rfl
    · exact hplain.account p hp
    · exact hplain.amount p hp
  have hreadsInputs := hwrites.strings _ (',' :: '"' :: ("proof".toList ++ '"' :: ':' ::
    ((M.bytes32ArrayToString proof).toList ++ ',' :: '"' :: ("root".toList ++ '"' :: ':' :: '"' ::
      ((V.toStringBytes32 root).toList ++ '"' :: ',' :: '"' :: ("leaf".toList ++ '"' :: ':' :: '"' ::
        ((V.toStringBytes32 (leaf C p.1 p.2)).toList ++ '"' :: '}' :: rest))))))) htexts
  have hreadsProof := hwrites.words proof (',' :: '"' :: ("root".toList ++ '"' :: ':' :: '"' ::
      ((V.toStringBytes32 root).toList ++ '"' :: ',' :: '"' :: ("leaf".toList ++ '"' :: ':' :: '"' ::
        ((V.toStringBytes32 (leaf C p.1 p.2)).toList ++ '"' :: '}' :: rest)))))
  simp only [entryText, MerkleScript.generateJsonEntries, String.toList_append, hbrace, hinputs, hcomma, hproof,
    hroot, hnext, hleaf, hquote, hend, List.cons_append, List.append_assoc, List.nil_append]
  exact .object (reads_nextMember (hkey "inputs" (by decide)) hreadsInputs
    (reads_nextMember (hkey "proof" (by decide)) hreadsProof
      (reads_nextMember (hkey "root" (by decide)) (.string (hplain.word root))
        (reads_lastMember (hkey "leaf" (by decide)) (.string (hplain.word _))))))

/-! ## The loops -/

variable {elements : String} {s₀ s : MerkleScript}

/-- A pass of the first loop, on a row of the whitelist. -/
theorem readStep_row (hM : M.Documented) (hlist : Lists V elements whitelist)
    (helements : s.elements = elements) (htypes : s.types = ["address", "uint"]) {i : Nat}
    (hi : i < whitelist.length) :
    MerkleScript.readStep C V M s i = .ok { s with
      leafs := s.leafs.set i (leaf C whitelist[i].1 whitelist[i].2)
      inputs := s.inputs.set i (M.stringArrayToString (rowTexts V whitelist[i])) } := by
  have hrow := LeafLemmas.readRow_eq hM hlist helements htypes hi
  have hleaf := @LeafLemmas.dataLeaf_eq C M whitelist[i].1 whitelist[i].2 hM
    (hlist.amount_lt _ (List.getElem_mem hi))
  rw [MerkleScript.readStep, hrow, ← hleaf]
  rfl

/-- After `k` passes the leaves and the texts of the first `k` rows are there. -/
theorem readRows_upto (hM : M.Documented) (hlist : Lists V elements whitelist)
    (helements : s₀.elements = elements) (htypes : s₀.types = ["address", "uint"])
    (hleafs : s₀.leafs.length = whitelist.length) (hinputs : s₀.inputs.length = whitelist.length)
    {k : Nat} (hk : k ≤ whitelist.length) :
    (List.range k).foldlM (MerkleScript.readStep C V M) s₀ = .ok { s₀ with
      leafs := (whitelist.take k).map (fun p => leaf C p.1 p.2) ++ s₀.leafs.drop k
      inputs := (whitelist.take k).map (fun p => M.stringArrayToString (rowTexts V p)) ++
        s₀.inputs.drop k } := by
  induction k with
  | zero => rfl
  | succ k ih =>
    have hi : k < whitelist.length := hk
    have hlen {β : Type} (f : Address × Nat → β) : ((whitelist.take k).map f).length = k := by
      rw [List.length_map, List.length_take, Nat.min_eq_left hi.le]
    have hstep (leafs : List Bytes32) (inputs : List String) :=
      readStep_row (C := C) (s := { s₀ with leafs := leafs, inputs := inputs }) hM hlist helements
        htypes hi
    have hleaf := LeafLemmas.set_fill (l := s₀.leafs)
      ((hlen fun p => leaf C p.1 p.2).trans_lt (hi.trans_eq hleafs.symm))
      (leaf C whitelist[k].1 whitelist[k].2)
    have hinput := LeafLemmas.set_fill (l := s₀.inputs)
      ((hlen fun p => M.stringArrayToString (rowTexts V p)).trans_lt (hi.trans_eq hinputs.symm))
      (M.stringArrayToString (rowTexts V whitelist[k]))
    rw [hlen] at hleaf hinput
    rw [List.range_succ, List.foldlM_append, ih hi.le]
    show (MerkleScript.readStep C V M _ k >>= pure) = _
    rw [hstep]
    simp only [hleaf, hinput, List.take_succ_eq_append_getElem hi, List.map_append, List.map_cons,
      List.map_nil]
    rfl

/-- The second loop, when there is a root, and a proof for each leaf. -/
theorem writeRows_upto {s : MerkleScript} {root : Bytes32} {proofs : List (List Bytes32)}
    (hleafs : s.leafs = whitelist.map fun p => leaf C p.1 p.2)
    (hinputs : s.inputs = whitelist.map fun p => M.stringArrayToString (rowTexts V p))
    (houtputs : s.outputs.length = whitelist.length) (hroot : M.getRoot s.leafs = some root)
    (hcount : proofs.length = whitelist.length)
    (hproofs : ∀ i (h : i < proofs.length), M.getProof s.leafs i = some proofs[i])
    {k : Nat} (hk : k ≤ whitelist.length) :
    (List.range k).foldlM (MerkleScript.writeStep V M) s = .ok { s with
      outputs := (List.zipWith (entryText C V M root) whitelist proofs).take k ++
        s.outputs.drop k } := by
  induction k with
  | zero => rfl
  | succ k ih =>
    have hi : k < whitelist.length := hk
    have hi' : k < proofs.length := hi.trans_eq hcount.symm
    have hzip : (List.zipWith (entryText C V M root) whitelist proofs).length = whitelist.length := by
      rw [List.length_zipWith, hcount, Nat.min_self]
    have hlen : ((List.zipWith (entryText C V M root) whitelist proofs).take k).length = k := by
      rw [List.length_take, hzip, Nat.min_eq_left hi.le]
    have houtput := LeafLemmas.set_fill (l := s.outputs)
      (hlen.trans_lt (hi.trans_eq houtputs.symm)) (entryText C V M root whitelist[k] proofs[k])
    have hleaf : index s.leafs k = .ok (leaf C whitelist[k].1 whitelist[k].2) := by
      rw [index, hleafs, List.getElem?_map, List.getElem?_eq_getElem hi]
      rfl
    have hinput : index s.inputs k = .ok (M.stringArrayToString (rowTexts V whitelist[k])) := by
      rw [index, hinputs, List.getElem?_map, List.getElem?_eq_getElem hi]
      rfl
    rw [hlen] at houtput
    rw [List.range_succ, List.foldlM_append, ih hi.le,
      List.take_succ_eq_append_getElem (hzip.symm ▸ hi), List.getElem_zipWith, ← houtput]
    show (MerkleScript.writeStep V M _ k >>= pure) = _
    simp only [MerkleScript.writeStep, hproofs k hi', hroot, hleaf, hinput]
    rfl

/-- What a script starts from. -/
theorem init_eq (hlist : Lists V elements whitelist) :
    ∃ s, MerkleScript.init V elements = .ok s ∧ s.elements = elements ∧
      s.types = ["address", "uint"] ∧ s.count = whitelist.length ∧
      s.leafs.length = whitelist.length ∧ s.inputs.length = whitelist.length ∧
      s.outputs.length = whitelist.length := by
  rw [MerkleScript.init, hlist.types, hlist.count]
  exact ⟨_, rfl, rfl, rfl, rfl, List.length_replicate, List.length_replicate, List.length_replicate⟩

/-- What the script writes, from a storage that fits the whitelist. -/
theorem run_eq {root : Bytes32} {proofs : List (List Bytes32)} (hM : M.Documented)
    (hlist : Lists V elements whitelist) (helements : s₀.elements = elements)
    (htypes : s₀.types = ["address", "uint"]) (hcount : s₀.count = whitelist.length)
    (hleafs : s₀.leafs.length = whitelist.length) (hinputs : s₀.inputs.length = whitelist.length)
    (houtputs : s₀.outputs.length = whitelist.length)
    (hroot : M.getRoot (whitelist.map fun p => leaf C p.1 p.2) = some root)
    (hlength : proofs.length = whitelist.length)
    (hproofs : ∀ i (h : i < proofs.length),
      M.getProof (whitelist.map fun p => leaf C p.1 p.2) i = some proofs[i]) :
    ∃ s, s₀.run C V M = .ok s ∧ s.output =
      M.stringArrayToArrayString (List.zipWith (entryText C V M root) whitelist proofs) := by
  have hread := readRows_upto (C := C) hM hlist helements htypes hleafs hinputs (Nat.le_refl _)
  rw [List.take_length, List.drop_eq_nil_of_le hleafs.le, List.drop_eq_nil_of_le hinputs.le,
    List.append_nil, List.append_nil, ← hcount] at hread
  have hwrite := writeRows_upto (C := C) (V := V) (M := M) (s := { s₀ with
      leafs := whitelist.map fun p => leaf C p.1 p.2
      inputs := whitelist.map fun p => M.stringArrayToString (rowTexts V p) })
    rfl rfl houtputs hroot hlength hproofs (Nat.le_refl _)
  rw [List.take_of_length_le (by simp), List.drop_eq_nil_of_le houtputs.le, List.append_nil,
    ← hcount] at hwrite
  obtain ⟨s₁, hs₁, houtput⟩ : ∃ s₁, (List.range s₀.count).foldlM (MerkleScript.writeStep V M) _ =
      .ok s₁ ∧ s₁.outputs = List.zipWith (entryText C V M root) whitelist proofs := ⟨_, hwrite, rfl⟩
  refine ⟨{ s₁ with output := M.stringArrayToArrayString s₁.outputs }, ?_, congrArg _ houtput⟩
  rw [MerkleScript.run, MerkleScript.readRows, hread]
  show ((List.range s₀.count).foldlM (MerkleScript.writeStep V M) _ >>= fun s =>
    (pure { s with output := M.stringArrayToArrayString s.outputs } : ScriptResult MerkleScript)) = _
  rw [hs₁]
  rfl

/-! ## The text -/

theorem forall₂_zipWith {α β γ δ : Type} {R : γ → δ → Prop} {f : α → β → γ} {g : α → β → δ}
    {as : List α} {l : List β} (h : ∀ a ∈ as, ∀ b, R (f a b) (g a b)) :
    List.Forall₂ R (List.zipWith f as l) (List.zipWith g as l) := by
  induction as generalizing l with
  | nil => exact .nil
  | cons a as ih =>
    cases l with
    | nil => exact .nil
    | cons b bs =>
      exact .cons (h a List.mem_cons_self b) (ih fun a' ha' => h a' (List.mem_cons_of_mem _ ha'))

theorem parse_output (hwrites : M.WritesArrays V) (hplain : V.WritesPlain whitelist)
    (root : Bytes32) (proofs : List (List Bytes32)) :
    parse (M.stringArrayToArrayString (List.zipWith (entryText C V M root) whitelist proofs)) =
      some (.array (List.zipWith (outputEntry C V root) whitelist proofs)) := by
  have hentries := hwrites.values _ _ [] (forall₂_zipWith (l := proofs) fun p hp proof rest =>
    reads_entry (C := C) hwrites hplain hp proof root rest)
  rw [List.append_nil] at hentries
  refine parse_of_reads (t := []) ?_ rfl
  rw [skip_of_reads hentries]
  exact hentries

/-- The tree over the leaves of the whitelist. -/
theorem covers_build (hlist : Lists V elements whitelist) :
    Covers C (MerkleTree.build 0 (whitelistLeafs C whitelist)) whitelist where
  every p hp := by
    obtain ⟨i, hi, hleaf⟩ := List.getElem_of_mem (List.mem_map.mpr ⟨p, hp, rfl⟩ :
      leaf C p.1 p.2 ∈ whitelistLeafs C whitelist)
    exact hleaf ▸ MerkleTree.mem_leaves_of_proves (MerkleTree.proves_siblings (pairHash C) 0 hi)
  only b hb := by
    refine (MerkleTree.mem_leaves_build hb).imp id fun hmem => ?_
    obtain ⟨p, hp, rfl⟩ := List.mem_map.mp hmem
    exact ⟨p, hp, rfl⟩
  amount_lt := hlist.amount_lt

end OutputLemmas

open OutputLemmas

def hexText (b : Bytes32) : String :=
  "0x" ++ String.ofList ((List.range 64).map fun i => Nat.digitChar (b.toNat / 16 ^ (63 - i) % 16))

def arrayText (texts : List String) : String := "[" ++ ",".intercalate texts ++ "]"

def quoted (text : String) : String := "\"" ++ text ++ "\""

/-- How a word is written does not matter for reading the file. -/
theorem lists_withText {V : Vm} {elements : String} {whitelist : List (Address × Nat)}
    (h : Lists V elements whitelist) (text : Bytes32 → String) :
    Lists { V with toStringBytes32 := text } elements whitelist :=
  ⟨h.types, h.count, h.account, h.amount, h.amount_lt⟩

def outputVm : Vm := { pairVm with toStringBytes32 := hexText }

def outputMurky : Murky := { pairMurky with
  getRoot := fun data =>
    if 2 ≤ data.length then some ((MerkleTree.build 0 data).root (pairHash pairCrypto)) else none
  getProof := fun data i =>
    if 2 ≤ data.length ∧ i < data.length then
      some (MerkleTree.siblings (pairHash pairCrypto) 0 data i) else none
  stringArrayToString := fun texts => arrayText (texts.map quoted)
  bytes32ArrayToString := fun words => arrayText (words.map fun b => quoted (hexText b))
  stringArrayToArrayString := arrayText }

theorem arrayText_reads {texts : List String} {vs : List Json} {rest : List Char}
    (h : List.Forall₂ (fun s v => ∀ rest, Json.Reads (s.toList ++ rest) v rest) texts vs) :
    Json.Reads ((arrayText texts).toList ++ rest) (.array vs) rest := by
  have hopen : "[".toList = ['['] := by decide
  have hcomma : ",".toList = [','] := by decide
  have hclose : "]".toList = [']'] := by decide
  rw [arrayText, String.toList_append, String.toList_append, String.toList_intercalate, hopen, hcomma,
    hclose, List.append_assoc, List.append_assoc]
  have hlists : List.Forall₂ (fun x v => ∀ rest, Json.Stops rest → Json.Reads (x ++ rest) v rest)
      (texts.map String.toList) vs :=
    List.forall₂_map_left_iff.mpr (h.imp fun s v hs rest _ => hs rest)
  cases texts with
  | nil =>
    cases h
    exact .emptyArray rfl
  | cons s texts =>
    rw [List.map_cons] at hlists ⊢
    have hitems := Json.reads_joined (t := rest) (List.cons_ne_nil _ _) hlists
    obtain ⟨c, cs, hcs, hspace, -⟩ := Json.readsItems_head hitems
    have hskip : Json.skip ([','].intercalate (s.toList :: texts.map String.toList) ++ ']' :: rest) =
        [','].intercalate (s.toList :: texts.map String.toList) ++ ']' :: rest := by
      rw [hcs]
      exact Json.skip_cons hspace
    exact .array (hskip.symm ▸ hitems)

theorem quoted_reads {text : String} (htext : ∀ c ∈ text.toList, Json.isPlain c = true)
    (rest : List Char) : Json.Reads ((quoted text).toList ++ rest) (.string text.toList) rest := by
  have hquote : "\"".toList = ['"'] := by decide
  rw [quoted, String.toList_append, String.toList_append, hquote, List.append_assoc, List.append_assoc]
  exact .string htext

theorem hexText_plain (b : Bytes32) : ∀ c ∈ (hexText b).toList, Json.isPlain c = true := by
  have hhead : "0x".toList.all Json.isPlain = true := by decide
  have hdigits : ∀ d < 16, Json.isPlain (Nat.digitChar d) = true := by decide
  intro c hc
  rw [hexText, String.toList_append] at hc
  rcases List.mem_append.mp hc with hc | hc
  · exact List.all_eq_true.mp hhead c hc
  · rw [String.toList_ofList] at hc
    obtain ⟨i, -, rfl⟩ := List.mem_map.mp hc
    exact hdigits _ (Nat.mod_lt _ (by decide))

theorem outputMurky_writes : outputMurky.WritesArrays outputVm where
  strings texts rest htexts := by
    refine arrayText_reads ?_
    rw [List.forall₂_map_left_iff, List.forall₂_map_right_iff, List.forall₂_same]
    exact fun s hs => quoted_reads (htexts s hs)
  words words rest := by
    refine arrayText_reads ?_
    rw [List.forall₂_map_left_iff, List.forall₂_map_right_iff, List.forall₂_same]
    exact fun b _ => quoted_reads (hexText_plain b)
  values texts vs rest h := arrayText_reads h

theorem outputVm_plain : outputVm.WritesPlain pairList where
  account := by
    have hall : ∀ p ∈ pairList, (outputVm.toStringAddress p.1).toList.all Json.isPlain = true := by
      decide
    exact fun p hp => List.all_eq_true.mp (hall p hp)
  amount p _ c hc := by
    show Json.isPlain c = true
    have hdigits : (outputVm.toStringUint p.2).toList = Nat.toDigits 10 p.2 := Nat.toList_repr
    rw [hdigits] at hc
    exact Json.isPlain_of_isDigit (Json.isDigit_of_mem hc)
  word := hexText_plain

theorem outputMurky_builds : outputMurky.Builds pairCrypto where
  getRoot _ hdata := if_pos hdata
  getProof _ _ hdata hi := if_pos ⟨hdata, hi⟩

end AdvFoundry.Airdrop
