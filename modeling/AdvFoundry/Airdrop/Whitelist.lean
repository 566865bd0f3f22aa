import AdvFoundry.Airdrop.Leaves
import AdvFoundry.Json.RoundTrip

/-!
# The whitelist file

`GenerateInput.createJSON` puts a text together from pieces, and `MakeMerkle` reads
values out of it by paths. In between stands the JSON value that the text is the
rendering of (`document`): the two loops write the items of its array and the
members of its object with a separator after all but the last, and the paths are
those of its parts.

`whitelist_read_back`: what is read is what was written, for lists of any length.
-/

namespace AdvFoundry.Airdrop

/-- What the scripts rely on in the cheat codes, for these accounts: numbers are
written in decimal and addresses without characters that need an escape, reading
follows JSON, and parsing undoes writing. -/
structure Vm.FollowsJson (V : Vm) (accounts : List Address) : Prop where
  toStringUint : ∀ n < uintSize, V.toStringUint n = n.repr
  toStringAddress : ∀ a ∈ accounts, ∀ c ∈ (V.toStringAddress a).toList, Json.isPlain c = true
  parseUint : ∀ n < uintSize, V.parseUint (V.toStringUint n) = some n
  readStringArray : ∀ json path (texts : List String),
    Json.valueAt json path = some (.array (texts.map fun t => .string t.toList)) →
      V.readStringArray json path = some texts
  readUint : ∀ json path, ∀ n < uintSize,
    Json.valueAt json path = some (.number (Nat.toDigits 10 n)) → V.readUint json path = some n
  readString : ∀ json path (t : String),
    Json.valueAt json path = some (.string t.toList) → V.readString json path = some t
  readAddress : ∀ json path, ∀ a ∈ accounts,
    Json.valueAt json path = some (.string (V.toStringAddress a).toList) →
      V.readAddress json path = some a

section Document

variable (V : Vm) (types : List String) (whitelist : List Address) (amount : Nat)

/-- The entry of an account. -/
def entry (account : Address) : Json :=
  .object [(['0'], .string (V.toStringAddress account).toList),
    (['1'], .string (V.toStringUint amount).toList)]

def entries : List (List Char × Json) :=
  whitelist.mapIdx fun i account => (Nat.toDigits 10 i, entry V amount account)

/-- The value that `createJSON` writes. -/
def document : Json :=
  .object [("types".toList, .array (types.map fun t => .string t.toList)),
    ("count".toList, .number (Nat.toDigits 10 whitelist.length)),
    ("values".toList, .object (entries V whitelist amount))]

end Document

namespace WhitelistLemmas

variable {V : Vm} {types : List String} {whitelist : List Address} {amount : Nat}

/-! ## Writing -/

theorem index_append {α : Type} (done : List α) (x : α) (rest : List α) :
    index (done ++ x :: rest) done.length = .ok x := by
  rw [index, List.getElem?_append_right (Nat.le_refl _), Nat.sub_self]
  rfl

/-- A pass of a loop that adds what belongs to an element, and a separator unless it
is the last. -/
def joinPass {α : Type} (xs : List α) (add : String → Nat → α → String) (json : String) (i : Nat) :
    ScriptResult String := do
  let x ← index xs i
  let last ← subU xs.length 1
  pure (if i < last then add json i x ++ ", " else add json i x)

section Join

variable {α : Type} {add : String → Nat → α → String} {piece : Nat → α → String}

theorem joinPass_last (done : List α) (x : α) (json : String) :
    joinPass (done ++ [x]) add json done.length = .ok (add json done.length x) := by
  have hlast : subU (done ++ [x]).length 1 = (.ok done.length : ScriptResult Nat) := by
    rw [subU_ok, List.length_append, List.length_singleton]
    omega
  rw [joinPass, index_append, hlast]
  show Except.ok (if done.length < done.length then _ else _) = _
  rw [if_neg (Nat.lt_irrefl _)]

theorem joinPass_next (done : List α) (x y : α) (rest : List α) (json : String) :
    joinPass (done ++ x :: y :: rest) add json done.length =
      .ok (add json done.length x ++ ", ") := by
  have hlast : subU (done ++ x :: y :: rest).length 1 =
      (.ok (done.length + rest.length + 1) : ScriptResult Nat) := by
    rw [subU_ok, List.length_append, List.length_cons, List.length_cons]
    omega
  rw [joinPass, index_append, hlast]
  show Except.ok (if done.length < done.length + rest.length + 1 then _ else _) = _
  rw [if_pos (by omega)]

/-- The loop, from the middle on. -/
theorem join_loop_from (hadd : ∀ json i x, add json i x = json ++ piece i x) (rest done : List α)
    (json : String) :
    (List.range' done.length rest.length).foldlM (joinPass (done ++ rest) add) json =
      .ok (json ++ Json.joined (rest.mapIdx fun i => piece (done.length + i))) := by
  induction rest generalizing done json with
  | nil =>
    rw [List.mapIdx_nil, Json.joined, String.append_empty]
    rfl
  | cons x rest ih =>
    rw [List.length_cons, List.range'_succ, List.foldlM_cons, List.mapIdx_cons]
    cases rest with
    | nil =>
      rw [joinPass_last, hadd, List.mapIdx_nil, Json.joined]
      rfl
    | cons y rest =>
      have hrest := ih (done ++ [x]) (json ++ piece done.length x ++ ", ")
      rw [List.append_assoc, List.singleton_append, List.length_append,
        List.length_singleton] at hrest
      rw [joinPass_next, hadd]
      refine hrest.trans ?_
      have hpieces : ((y :: rest).mapIdx fun i => piece (done.length + 1 + i)) =
          (y :: rest).mapIdx fun i => piece (done.length + (i + 1)) := by
        simp only [Nat.add_assoc, Nat.add_comm 1]
      rw [hpieces, List.mapIdx_cons, Json.joined_two]
      simp only [String.append_assoc, Nat.add_zero]

/-- The loop adds the pieces with separators between them. -/
theorem join_loop (hadd : ∀ json i x, add json i x = json ++ piece i x) (xs : List α)
    (json : String) :
    (List.range xs.length).foldlM (joinPass xs add) json =
      .ok (json ++ Json.joined (xs.mapIdx piece)) := by
  have h := join_loop_from hadd xs [] json
  simp only [List.length_nil, List.nil_append, Nat.zero_add] at h
  rw [List.range_eq_range']
  exact h

end Join

/-! ## The text is the rendering of the document -/

/-- What the loops add. -/
def typePiece (type : String) : String := "\"" ++ type ++ "\""

def entryPiece (V : Vm) (amount i : Nat) (account : Address) : String :=
  "\"" ++ V.toStringUint i ++ "\": \x7b" ++ "\"0\": \"" ++ V.toStringAddress account ++ "\", " ++
    "\"1\": \"" ++ V.toStringUint amount ++ "\"\x7d"

/-- The text that `createJSON` returns. -/
def jsonText (V : Vm) (types : List String) (whitelist : List Address) (amount : Nat) : String :=
  "\x7b" ++ "\"types\": [" ++ Json.joined (types.mapIdx fun _ => typePiece) ++ "], " ++
    "\"count\": " ++ V.toStringUint whitelist.length ++ ", " ++ "\"values\": \x7b" ++
    Json.joined (whitelist.mapIdx (entryPiece V amount)) ++ "\x7d\x7d"

theorem createJSON_eq (V : Vm) (types : List String) (whitelist : List Address) (amount : Nat) :
    createJSON V types whitelist amount = .ok (jsonText V types whitelist amount) := by
  have htypes := @join_loop String (fun json _ type => json ++ "\"" ++ type ++ "\"")
    (fun _ => typePiece) (fun json i type => by simp only [typePiece, String.append_assoc]) types
    ("\x7b" ++ "\"types\": [")
  have hvalues := @join_loop Address
    (fun json i account => json ++ "\"" ++ V.toStringUint i ++ "\": \x7b" ++ "\"0\": \"" ++
      V.toStringAddress account ++ "\", " ++ "\"1\": \"" ++ V.toStringUint amount ++ "\"\x7d")
    (entryPiece V amount)
    (fun json i account => by simp only [entryPiece, String.append_assoc]) whitelist
  simp only [createJSON, Result.bind_ok, Result.pure_ok]
  exact ⟨_, htypes, _, hvalues _, rfl⟩

theorem toList_toStringUint (h : V.FollowsJson whitelist) {n : Nat} (hn : n < uintSize) :
    (V.toStringUint n).toList = Nat.toDigits 10 n := by
  rw [h.toStringUint n hn, Nat.toList_repr]

theorem typePiece_toList (t : String) :
    (typePiece t).toList = Json.render (.string t.toList) := by
  rw [typePiece, String.toList_append, String.toList_append, Json.render]
  rfl

theorem entryPiece_toList (hV : V.FollowsJson whitelist) {i : Nat} (hi : i < uintSize)
    (account : Address) :
    (entryPiece V amount i account).toList =
      Json.renderMember (Nat.toDigits 10 i, entry V amount account) := by
  rw [Json.renderMember, entry, Json.render, Json.renderMembers_two, Json.renderMembers_one,
    Json.render, Json.render]
  simp only [entryPiece, String.toList_append, toList_toStringUint hV hi, List.append_assoc,
    List.cons_append, List.nil_append]
  rfl

theorem jsonText_toList (hV : V.FollowsJson whitelist) (hcount : whitelist.length < uintSize) :
    (jsonText V types whitelist amount).toList =
      Json.render (document V types whitelist amount) := by
  have htypes : (Json.joined (types.mapIdx fun _ => typePiece)).toList =
      Json.renderItems (types.map fun t => .string t.toList) := by
    apply Json.joined_items
    apply List.ext_getElem (by simp)
    intro i h h'
    simp only [List.getElem_map, List.getElem_mapIdx, typePiece_toList]
  have hvalues : (Json.joined (whitelist.mapIdx (entryPiece V amount))).toList =
      Json.renderMembers (entries V whitelist amount) := by
    apply Json.joined_members
    apply List.ext_getElem (by simp [entries])
    intro i h h'
    have hi : i < whitelist.length := by simpa using h
    simp only [entries, List.getElem_map, List.getElem_mapIdx]
    exact entryPiece_toList hV (hi.trans hcount) _
  rw [document, Json.render, Json.renderMembers_two, Json.renderMembers_two,
    Json.renderMembers_one, Json.render, Json.render, Json.render]
  simp only [jsonText, String.toList_append, htypes, hvalues, toList_toStringUint hV hcount,
    List.append_assoc, List.cons_append, List.nil_append]
  rfl

/-! ## The document is plain -/

theorem entry_plain (hV : V.FollowsJson whitelist) (hamount : amount < uintSize)
    {account : Address} (haccount : account ∈ whitelist) : Json.Plain (entry V amount account) := by
  refine .object ?_ ?_
  · intro m hm
    rcases List.mem_pair.mp hm with rfl | rfl
    · exact List.all_eq_true.mp (by decide : ['0'].all Json.isPlain = true)
    · exact List.all_eq_true.mp (by decide : ['1'].all Json.isPlain = true)
  · intro m hm
    rcases List.mem_pair.mp hm with rfl | rfl
    · exact .string (hV.toStringAddress account haccount)
    · refine .string fun c hc => ?_
      rw [toList_toStringUint hV hamount] at hc
      exact Json.isPlain_of_isDigit (Json.isDigit_of_mem hc)

theorem entries_plain (hV : V.FollowsJson whitelist) (hamount : amount < uintSize) :
    Json.Plain (.object (entries V whitelist amount)) := by
  refine .object ?_ ?_
  · intro m hm
    obtain ⟨i, hi, rfl⟩ := List.mem_mapIdx.mp hm
    exact fun c hc => Json.isPlain_of_isDigit (Json.isDigit_of_mem hc)
  · intro m hm
    obtain ⟨i, hi, rfl⟩ := List.mem_mapIdx.mp hm
    exact entry_plain hV hamount (List.getElem_mem hi)

theorem document_plain (hV : V.FollowsJson whitelist) (hamount : amount < uintSize)
    (htypes : ∀ t ∈ types, ∀ c ∈ t.toList, Json.isPlain c = true) :
    Json.Plain (document V types whitelist amount) := by
  refine .object ?_ ?_
  · intro m hm
    simp only [List.mem_cons, List.not_mem_nil, or_false] at hm
    rcases hm with rfl | rfl | rfl
    · exact List.all_eq_true.mp (by decide : "types".toList.all Json.isPlain = true)
    · exact List.all_eq_true.mp (by decide : "count".toList.all Json.isPlain = true)
    · exact List.all_eq_true.mp (by decide : "values".toList.all Json.isPlain = true)
  · intro m hm
    simp only [List.mem_cons, List.not_mem_nil, or_false] at hm
    rcases hm with rfl | rfl | rfl
    · refine .array fun v hv => ?_
      obtain ⟨t, ht, rfl⟩ := List.mem_map.mp hv
      exact .string (htypes t ht)
    · exact .nat _
    · exact entries_plain hV hamount

/-! ## Reading -/

/-- The names in the path to a value. -/
theorem names_getValuesByIndex (hV : V.FollowsJson whitelist) {i j : Nat} (hi : i < uintSize)
    (hj : j < uintSize) :
    Json.names (MerkleScript.getValuesByIndex V i j) =
      ["values".toList, Nat.toDigits 10 i, Nat.toDigits 10 j] := by
  have hdots {n : Nat} : '.' ∉ Nat.toDigits 10 n :=
    fun h => absurd (Json.isDigit_of_mem h) (by decide)
  apply Json.names_eq
  · intro k hk
    simp only [List.mem_cons, List.not_mem_nil, or_false] at hk
    rcases hk with rfl | rfl | rfl
    · decide
    · exact hdots
    · exact hdots
  · simp only [MerkleScript.getValuesByIndex, String.toList_append, toList_toStringUint hV hi,
      toList_toStringUint hV hj, List.append_assoc]
    simp

section Lookups

variable {json : String} (hparse : Json.parse json = some (document V types whitelist amount))
include hparse

theorem types_at :
    Json.valueAt json ".types" = some (.array (types.map fun t => .string t.toList)) := by
  have hnames : Json.names ".types" = ["types".toList] := by decide
  exact Json.valueAt_eq hparse hnames

theorem count_at :
    Json.valueAt json ".count" = some (.number (Nat.toDigits 10 whitelist.length)) := by
  have hnames : Json.names ".count" = ["count".toList] := by decide
  exact Json.valueAt_eq hparse hnames

theorem values_at : Json.valueAt json ".values" = some (.object (entries V whitelist amount)) := by
  have hnames : Json.names ".values" = ["values".toList] := by decide
  exact Json.valueAt_eq hparse hnames

/-- What stands at the path to a value is what its entry holds there. -/
theorem value_at (hV : V.FollowsJson whitelist) (hcount : whitelist.length < uintSize) {i j : Nat}
    (hi : i < whitelist.length) (hj : j < uintSize) :
    Json.valueAt json (MerkleScript.getValuesByIndex V i j) =
      (entry V amount whitelist[i]).member (Nat.toDigits 10 j) := by
  have hentry : (Json.object (entries V whitelist amount)).member (Nat.toDigits 10 i) =
      some (entry V amount whitelist[i]) := by
    rw [Json.member, entries, Json.lookup_mapIdx Json.toDigits_injective,
      List.getElem?_eq_getElem hi]
    rfl
  rw [Json.valueAt_eq hparse (names_getValuesByIndex hV (hi.trans hcount) hj)]
  show ((Json.object (entries V whitelist amount)).member (Nat.toDigits 10 i)).bind _ = _
  rw [hentry]
  exact bind_pure ((entry V amount whitelist[i]).member (Nat.toDigits 10 j))

end Lookups

end WhitelistLemmas

open WhitelistLemmas

/-- What the text read back says, by the paths that `MakeMerkle` looks at. -/
structure ReadBack (V : Vm) (json : String) (types : List String) (whitelist : List Address)
    (amount : Nat) : Prop where
  object : ∃ ms, Json.parse json = some (.object ms)
  types : V.readStringArray json ".types" = some types
  count : V.readUint json ".count" = some whitelist.length
  account : ∀ i (h : i < whitelist.length),
    V.readAddress json (MerkleScript.getValuesByIndex V i 0) = some whitelist[i]
  amount : ∀ i < whitelist.length,
    (V.readString json (MerkleScript.getValuesByIndex V i 1)).bind V.parseUint = some amount
  /-- One entry for each index below the count, and no other. -/
  rows : ∃ rows, Json.valueAt json ".values" = some (.object rows) ∧
    rows.map Prod.fst = (List.range whitelist.length).map (Nat.toDigits 10)

namespace WhitelistLemmas

variable {V : Vm} {types : List String} {whitelist : List Address} {amount : Nat}

theorem readBack_of_parse {json : String} (hV : V.FollowsJson whitelist)
    (hcount : whitelist.length < uintSize) (hamount : amount < uintSize)
    (hparse : Json.parse json = some (document V types whitelist amount)) :
    ReadBack V json types whitelist amount where
  object := ⟨_, hparse⟩
  types := hV.readStringArray json _ types (types_at hparse)
  count := hV.readUint json _ _ hcount (count_at hparse)
  account i h := by
    have hvalue := value_at (j := 0) hparse hV hcount h (by decide)
    exact hV.readAddress json _ _ (List.getElem_mem h) hvalue
  amount i h := by
    have hvalue := value_at (j := 1) hparse hV hcount h (by decide)
    rw [hV.readString json _ (V.toStringUint amount) hvalue]
    exact hV.parseUint amount hamount
  rows := by
    refine ⟨_, values_at hparse, ?_⟩
    apply List.ext_getElem (by simp [entries])
    intro i h h'
    simp only [entries, List.getElem_map, List.getElem_mapIdx, List.getElem_range]

end WhitelistLemmas

/-- What is read is what was written. The text is a JSON object for every list of
types and every whitelist, the empty ones included, and the lookups give back the
types, the count, and the account and the amount of every entry. -/
theorem whitelist_read_back {V : Vm} {types : List String} {whitelist : List Address}
    {amount : Nat} (hV : V.FollowsJson whitelist)
    (htypes : ∀ t ∈ types, ∀ c ∈ t.toList, Json.isPlain c = true)
    (hcount : whitelist.length < uintSize) (hamount : amount < uintSize) :
    ∃ json, createJSON V types whitelist amount = .ok json ∧
      ReadBack V json types whitelist amount ∧
      ∃ s, MerkleScript.init V json = .ok s ∧ s.elements = json ∧ s.types = types ∧
        s.count = whitelist.length := by
  have hparse := Json.parse_render (document_plain hV hamount htypes) (jsonText_toList hV hcount)
  have hread := readBack_of_parse hV hcount hamount hparse
  refine ⟨_, createJSON_eq V types whitelist amount, hread, ?_⟩
  rw [MerkleScript.init, hread.types, hread.count]
  exact ⟨_, rfl, rfl, rfl, rfl⟩

theorem addressUint_plain : ∀ t ∈ ["address", "uint"], ∀ c ∈ t.toList, Json.isPlain c = true := by
  have hall : ∀ t ∈ ["address", "uint"], t.toList.all Json.isPlain = true := by decide
  exact fun t ht => List.all_eq_true.mp (hall t ht)

/-- The written file lists the accounts, each with the amount. -/
theorem createJSON_lists {V : Vm} {whitelist : List Address} {amount : Nat}
    (hV : V.FollowsJson whitelist) (hcount : whitelist.length < uintSize)
    (hamount : amount < uintSize) :
    ∃ json, createJSON V ["address", "uint"] whitelist amount = .ok json ∧
      Lists V json (whitelist.map fun account => (account, amount)) := by
  have hplain : Json.Plain (document V ["address", "uint"] whitelist amount) :=
    document_plain hV hamount addressUint_plain
  have hparse := Json.parse_render hplain (jsonText_toList hV hcount)
  have hread := readBack_of_parse hV hcount hamount hparse
  refine ⟨_, createJSON_eq V _ whitelist amount, hread.types, ?_, fun i h => ?_, fun i h => ?_, ?_⟩
  · rw [List.length_map]
    exact hread.count
  · rw [List.length_map] at h
    rw [List.getElem_map]
    exact hread.account i h
  · rw [List.length_map] at h
    rw [List.getElem_map]
    exact hread.amount i h
  · intro p hp
    obtain ⟨account, -, rfl⟩ := List.mem_map.mp hp
    exact hamount

/-- Through the file, the one script hands the other the leaves of the contract. -/
theorem written_leaves {C : Crypto} {V : Vm} {M : Murky} {whitelist : List Address} {amount : Nat}
    (hM : M.Documented) (hV : V.FollowsJson whitelist) (hcount : whitelist.length < uintSize)
    (hamount : amount < uintSize) :
    ∃ json s₀ s, createJSON V ["address", "uint"] whitelist amount = .ok json ∧
      MerkleScript.init V json = .ok s₀ ∧ s₀.readRows C V M = .ok s ∧
      s.leafs = whitelist.map fun account => leaf C account amount := by
  obtain ⟨json, hjson, hlist⟩ := createJSON_lists hV hcount hamount
  obtain ⟨s₀, s, hinit, hrows, hleafs⟩ := LeafLemmas.readRows_leafs C hM hlist
  refine ⟨json, s₀, s, hjson, hinit, hrows, ?_⟩
  rw [hleafs, List.map_map]
  rfl

/-! ### The list of `GenerateInput.run` -/

/-- The accounts, as they are written with a checksum. -/
def checksummed : List (Address × String) :=
  [(0x6CA6D1e2D5347bfaB1d91E883F1915560E891290, "0x6CA6D1e2D5347bfaB1d91E883F1915560E891290"),
    (0xAb5801a7D398351b8bE11C439e05C5B3259aeC9B, "0xAb5801a7D398351b8bE11C439e05C5B3259aeC9B"),
    (0x1Db3439a222C519ab44bb1144fC28167b4Fa6EE6, "0x1Db3439a222C519ab44bb1144fC28167b4Fa6EE6"),
    (0x0e466e7519A469f20168796a0807b758a2339791, "0x0e466e7519A469f20168796a0807b758a2339791")]

/-! What a JSON value is read as. -/

def asString : Json → Option String
  | .string t => some (String.ofList t)
  | _ => none

def asStrings : Json → Option (List String)
  | .array items => items.mapM asString
  | _ => none

def asUint : Json → Option Nat
  | .number lexeme => some (Nat.ofDigitChars 10 lexeme 0)
  | _ => none

def asAddress : Json → Option Address
  | .string t => (checksummed.find? fun p => p.2.toList == t).map Prod.fst
  | _ => none

def jsonVm : Vm where
  toStringUint := Nat.repr
  toStringAddress a := (checksummed.lookup a).getD ""
  toStringBytes32 b := "0x" ++ b.toHex
  parseUint text :=
    if text.toList ≠ [] ∧ text.toList.all Char.isDigit then
      some (Nat.ofDigitChars 10 text.toList 0)
    else none
  readStringArray json path := (Json.valueAt json path).bind asStrings
  readUint json path := (Json.valueAt json path).bind asUint
  readString json path := (Json.valueAt json path).bind asString
  readAddress json path := (Json.valueAt json path).bind asAddress

theorem mapM_asString (texts : List String) :
    (texts.map fun t => Json.string t.toList).mapM asString = some texts := by
  induction texts with
  | nil => rfl
  | cons t texts ih =>
    rw [List.map_cons, List.mapM_cons, ih]
    exact congrArg (fun t => some (t :: texts)) String.ofList_toList

theorem checksummed_plain : ∀ p ∈ checksummed, p.2.toList.all Json.isPlain = true := by decide

theorem lookup_checksummed : ∀ p ∈ checksummed, checksummed.lookup p.1 = some p.2 := by decide

theorem find_checksummed : ∀ p ∈ checksummed,
    (checksummed.find? fun q => q.2.toList == p.2.toList).map Prod.fst = some p.1 := by
  decide

theorem toStringAddress_checksummed {p : Address × String} (hp : p ∈ checksummed) :
    jsonVm.toStringAddress p.1 = p.2 := by
  show (checksummed.lookup p.1).getD "" = p.2
  rw [lookup_checksummed p hp]
  rfl

theorem jsonVm_follows : jsonVm.FollowsJson (checksummed.map Prod.fst) where
  toStringUint n hn := rfl
  toStringAddress a ha := by
    obtain ⟨p, hp, rfl⟩ := List.mem_map.mp ha
    rw [toStringAddress_checksummed hp]
    exact List.all_eq_true.mp (checksummed_plain p hp)
  parseUint n hn := by
    have hdigits : ∀ c ∈ Nat.toDigits 10 n, c.isDigit = true := fun c => Json.isDigit_of_mem
    show (if n.repr.toList ≠ [] ∧ n.repr.toList.all Char.isDigit = true then
      some (Nat.ofDigitChars 10 n.repr.toList 0) else none) = some n
    rw [Nat.toList_repr, if_pos ⟨Nat.toDigits_ne_nil, List.all_eq_true.mpr hdigits⟩,
      Nat.ofDigitChars_ten_toDigits]
  readStringArray json path texts h := by
    show (Json.valueAt json path).bind asStrings = some texts
    rw [h]
    exact mapM_asString texts
  readUint json path n hn h := by
    show (Json.valueAt json path).bind asUint = some n
    rw [h]
    exact congrArg some Nat.ofDigitChars_ten_toDigits
  readString json path t h := by
    show (Json.valueAt json path).bind asString = some t
    rw [h]
    exact congrArg some String.ofList_toList
  readAddress json path a ha h := by
    obtain ⟨p, hp, rfl⟩ := List.mem_map.mp ha
    rw [toStringAddress_checksummed hp] at h
    show (Json.valueAt json path).bind asAddress = some p.1
    rw [h]
    exact find_checksummed p hp

theorem whitelist_read_back_four_accounts :
    ∃ json, createJSON jsonVm ["address", "uint"] (checksummed.map Prod.fst) (2500 * 10 ^ 18) =
        .ok json ∧
      ReadBack jsonVm json ["address", "uint"] (checksummed.map Prod.fst) (2500 * 10 ^ 18) ∧
      ∃ s, MerkleScript.init jsonVm json = .ok s ∧ s.elements = json ∧
        s.types = ["address", "uint"] ∧ s.count = 4 :=
  whitelist_read_back jsonVm_follows addressUint_plain (by decide) (by decide)

end AdvFoundry.Airdrop
