import AdvFoundry.Encoding.Base64
import AdvFoundry.Json.Grammar
import AdvFoundry.Nft.Dynamic

/-!
# The metadata of a sword

`DynamicNFT.tokenURI` puts a JSON text together and encodes it into the URI. What
a reader of the URI gets back is one object with four members (`metadata`): the
image is that of the token's level, and the attribute `level` has the value 1
whatever the level is. `Base64.encode` of the library is a parameter.

`tokenURI_read_back`: this holds in every state, for ids that were never minted too,
and an upgrade changes the image of its token and nothing else.
-/

namespace AdvFoundry.Nft.DynamicNFT

/-- `s_simpleSword`, `s_windSword` and `s_godSword`, which only the constructor
writes. -/
structure Images where
  simpleSword : String
  windSword : String
  godSword : String

/-- The image of a level. -/
def Images.image (images : Images) : Sword → String
  | .SIMPLE_SWORD => images.simpleSword
  | .WIND_SWORD => images.windSword
  | .GOD_SWORD => images.godSword

/-- `bytes(text)`. -/
def utf8 (text : String) : List UInt8 := text.toUTF8.data.toList

/-- `ERC721.name`. -/
def name : String := "Evolving Swords NFT"

def _baseURI : String := "data:application/json;base64,"

def imageURI (images : Images) (w : World DynamicNFT) (tokenNumber : Nat) : String :=
  if w.own.tokenIdToSword tokenNumber = .SIMPLE_SWORD then images.simpleSword
  else if w.own.tokenIdToSword tokenNumber = .WIND_SWORD then images.windSword
  else images.godSword

/-- The text that `tokenURI` encodes. -/
def metadataText (image : String) : String :=
  "\x7b" ++ "\"name\":\"" ++ name ++ "\"," ++
    "\"description\":\"this is a dynamic sword nft which reacts to ur Sepolia Eth balance\"," ++
    "\"attributes\":[\x7b\"trait_type\":\"level\",\"value\":1\x7d]," ++
    "\"image\":\"" ++ image ++ "\"" ++ "\x7d"

def tokenURI (encode : List UInt8 → String) (images : Images) (w : World DynamicNFT)
    (tokenNumber : Nat) : String :=
  _baseURI ++ encode (utf8 (metadataText (imageURI images w tokenNumber)))

/-! ## Reading it -/

/-- The value of the text. -/
def metadata (image : String) : Json :=
  .object
    [("name".toList, .string name.toList),
      ("description".toList,
        .string "this is a dynamic sword nft which reacts to ur Sepolia Eth balance".toList),
      ("attributes".toList, .array [.object
        [("trait_type".toList, .string "level".toList),
          ("value".toList, .number (Nat.toDigits 10 1))]]),
      ("image".toList, .string image.toList)]

/-- What a reader of a URI gets: the bytes that its end encodes, if they are those
of a text that is JSON. -/
def ReadsAs (uri : String) (v : Json) : Prop :=
  ∃ payload json : String, uri = "data:application/json;base64," ++ payload ∧
    Base64.decode payload.toList = some (utf8 json) ∧ Json.parse json = some v

namespace MetadataLemmas

open Json

variable {image : String}

/-- The rest of the text, from the image on. -/
theorem reads_image (himage : ∀ c ∈ image.toList, isPlain c = true) :
    ReadsMembers ("\"image\":\"".toList ++ image.toList ++ "\"".toList ++ "\x7d".toList)
      [("image".toList, .string image.toList)] [] := by
  have hkey : "\"image\":\"".toList = '"' :: ("image".toList ++ ['"', ':', '"']) := by decide
  have hplain : "image".toList.all isPlain = true := by decide
  have hend : "\"".toList ++ "\x7d".toList = ['"', '}'] := by decide
  rw [hkey, List.append_assoc, hend]
  simp only [List.cons_append, List.append_assoc, List.nil_append]
  exact .last (List.all_eq_true.mp hplain) rfl (.string himage) rfl

theorem reads_attributes {rest : List Char} {ms : List (List Char × Json)}
    (hrest : ReadsMembers rest ms []) (hskip : skip rest = rest) :
    ReadsMembers ("\"attributes\":[\x7b\"trait_type\":\"level\",\"value\":1\x7d],".toList ++ rest)
      (("attributes".toList, .array [.object
        [("trait_type".toList, .string "level".toList),
          ("value".toList, .number (Nat.toDigits 10 1))]]) :: ms) [] := by
  have htext : "\"attributes\":[\x7b\"trait_type\":\"level\",\"value\":1\x7d],".toList =
      '"' :: ("attributes".toList ++ '"' :: ':' :: '[' :: '{' :: '"' :: ("trait_type".toList ++
        '"' :: ':' :: '"' :: ("level".toList ++ '"' :: ',' :: '"' :: ("value".toList ++
          '"' :: ':' :: (Nat.toDigits 10 1 ++ ['}', ']', ',']))))) := by
    decide
  have hattributes : "attributes".toList.all isPlain = true := by decide
  have htrait : "trait_type".toList.all isPlain = true := by decide
  have hlevel : "level".toList.all isPlain = true := by decide
  have hvalue : "value".toList.all isPlain = true := by decide
  rw [htext]
  simp only [List.cons_append, List.append_assoc, List.nil_append]
  have hobject : Reads ('{' :: '"' :: ("trait_type".toList ++ '"' :: ':' :: '"' :: ("level".toList ++
      '"' :: ',' :: '"' :: ("value".toList ++ '"' :: ':' :: (Nat.toDigits 10 1 ++
        '}' :: ']' :: ',' :: rest)))))
      (.object [("trait_type".toList, .string "level".toList),
        ("value".toList, .number (Nat.toDigits 10 1))]) (']' :: ',' :: rest) :=
    .object (.next (List.all_eq_true.mp htrait) rfl (.string (List.all_eq_true.mp hlevel)) rfl
      (.last (List.all_eq_true.mp hvalue) rfl (.nat 1 (by simp [Stops])) rfl))
  have harray := Reads.array (l := '{' :: _) (.last hobject rfl)
  refine .next (List.all_eq_true.mp hattributes) rfl harray rfl ?_
  rw [hskip]
  exact hrest

/-- A member that is a text of its own. -/
theorem reads_text {k s rest : List Char} {ms : List (List Char × Json)}
    (hk : k.all isPlain = true) (hs : s.all isPlain = true) (hrest : ReadsMembers rest ms [])
    (hskip : skip rest = rest) :
    ReadsMembers ('"' :: (k ++ '"' :: ':' :: '"' :: (s ++ '"' :: ',' :: rest)))
      ((k, .string s) :: ms) [] := by
  refine .next (List.all_eq_true.mp hk) rfl (.string (List.all_eq_true.mp hs)) rfl ?_
  rw [hskip]
  exact hrest

theorem skip_quote {cs : List Char} : skip ('"' :: cs) = '"' :: cs := rfl

theorem parse_metadataText (himage : ∀ c ∈ image.toList, isPlain c = true) :
    parse (metadataText image) = some (metadata image) := by
  have hname : "\"name\":\"".toList ++ (name.toList ++ "\",".toList) =
      '"' :: ("name".toList ++ '"' :: ':' :: '"' :: (name.toList ++ ['"', ','])) := by decide
  have hdescription :
      "\"description\":\"this is a dynamic sword nft which reacts to ur Sepolia Eth balance\",".toList =
        '"' :: ("description".toList ++ '"' :: ':' :: '"' ::
          ("this is a dynamic sword nft which reacts to ur Sepolia Eth balance".toList ++
            ['"', ','])) := by
    decide
  have hmembers := reads_image himage
  have hattributes := reads_attributes hmembers rfl
  have htwo := reads_text (k := "description".toList)
    (s := "this is a dynamic sword nft which reacts to ur Sepolia Eth balance".toList)
    (by decide) (by decide) hattributes rfl
  have hall := reads_text (k := "name".toList) (s := name.toList) (by decide) (by decide) htwo
    skip_quote
  refine parse_of_reads (t := []) ?_ rfl
  have htext : (metadataText image).toList = '{' ::
      ('"' :: ("name".toList ++ '"' :: ':' :: '"' :: (name.toList ++ '"' :: ',' ::
        '"' :: ("description".toList ++ '"' :: ':' :: '"' ::
          ("this is a dynamic sword nft which reacts to ur Sepolia Eth balance".toList ++
            '"' :: ',' :: ("\"attributes\":[\x7b\"trait_type\":\"level\",\"value\":1\x7d],".toList ++
              ("\"image\":\"".toList ++ image.toList ++ "\"".toList ++ "\x7d".toList))))))) := by
    have hbrace : "\x7b".toList = ['{'] := by decide
    simp only [metadataText, String.toList_append, hdescription, hbrace, List.append_assoc]
    rw [← List.append_assoc name.toList, ← List.append_assoc _ (name.toList ++ _), hname]
    simp only [List.cons_append, List.append_assoc, List.nil_append]
  rw [htext]
  exact .object hall

theorem imageURI_eq (images : Images) (w : World DynamicNFT) (id : Nat) :
    imageURI images w id = images.image (w.own.tokenIdToSword id) := by
  unfold imageURI
  cases w.own.tokenIdToSword id with
  | SIMPLE_SWORD => rfl
  | WIND_SWORD => rfl
  | GOD_SWORD => rfl

theorem utf8_injective : Function.Injective utf8 := by
  intro s s' h
  exact String.toByteArray_inj.mp (ByteArray.ext (Array.toList_inj.mp h))

/-- The URI is read in one way only. -/
theorem readsAs_iff {encode : List UInt8 → String}
    (hencode : ∀ bytes, (encode bytes).toList = Base64.encode bytes) {text : String} {v : Json}
    (hparse : parse text = some v) (v' : Json) :
    ReadsAs (_baseURI ++ encode (utf8 text)) v' ↔ v' = v := by
  constructor
  · rintro ⟨payload, json, huri, hdecode, hjson⟩
    have hpayload : encode (utf8 text) = payload := by
      rw [← String.toList_inj, String.toList_append, String.toList_append] at huri
      exact String.toList_inj.mp (List.append_cancel_left huri)
    rw [← hpayload, hencode, Base64.decode_encode, Option.some.injEq] at hdecode
    rw [← utf8_injective hdecode, hparse, Option.some.injEq] at hjson
    exact hjson.symm
  · rintro rfl
    refine ⟨encode (utf8 text), text, rfl, ?_, hparse⟩
    rw [hencode, Base64.decode_encode]

end MetadataLemmas

open MetadataLemmas

/-- For images that need no escape, in every state and for every id, minted or not: a
reader of the URI gets the object with the image of the token's level, and nothing
else. After an upgrade it is the image of the next level for the upgraded token, and
what it was for every other; the attribute says level 1 all along. -/
theorem tokenURI_read_back {encode : List UInt8 → String}
    (hencode : ∀ bytes, (encode bytes).toList = Base64.encode bytes) {images : Images}
    (himages : ∀ sword, ∀ c ∈ (images.image sword).toList, Json.isPlain c = true)
    (w : World DynamicNFT) (id : Nat) :
    (∀ v, ReadsAs (tokenURI encode images w id) v ↔
      v = metadata (images.image (w.own.tokenIdToSword id))) ∧
    ∀ c id' w', upgradeSword c id' w = .ok ((), w') →
      ∃ next : Sword, next.level = (w.own.tokenIdToSword id').level + 1 ∧
        ∀ v, ReadsAs (tokenURI encode images w' id) v ↔
          v = metadata (images.image (if id = id' then next else w.own.tokenIdToSword id)) := by
  have hread (w : World DynamicNFT) (v : Json) : ReadsAs (tokenURI encode images w id) v ↔
      v = metadata (images.image (w.own.tokenIdToSword id)) := by
    rw [tokenURI, imageURI_eq]
    exact readsAs_iff hencode (parse_metadataText (himages _)) v
  refine ⟨hread w, fun c id' w' hup => ?_⟩
  obtain ⟨-, next, hnext, rfl⟩ := DynamicLemmas.upgradeSword_ok.mp hup
  refine ⟨next, hnext, fun v => ?_⟩
  rw [hread]
  show v = metadata (images.image (Function.update w.own.tokenIdToSword id' next id)) ↔ _
  rw [Function.update_apply]

/-- An encoder as the library documents it. -/
def encodeText (bytes : List UInt8) : String := String.ofList (Base64.encode bytes)

def sampleImages : Images := ⟨"data:,a", "data:,b", "data:,c"⟩

/-- A token at the second level, and its next upgrade by its owner. -/
def windWorld : World DynamicNFT where
  erc721 := { ERC721.empty with owners := fun id => if id = 0 then 25 else 0 }
  own := ⟨1, fun id => if id = 0 then .WIND_SWORD else .SIMPLE_SWORD⟩

theorem tokenURI_read_back_wind :
    (∀ v, ReadsAs (tokenURI encodeText sampleImages windWorld 0) v ↔ v = metadata "data:,b") ∧
    ∃ w', upgradeSword 25 0 windWorld = .ok ((), w') ∧
      ∀ v, ReadsAs (tokenURI encodeText sampleImages w' 0) v ↔ v = metadata "data:,c" := by
  have hplain : ∀ sword, (sampleImages.image sword).toList.all Json.isPlain = true := by
    intro sword
    cases sword <;> decide
  obtain ⟨hread, hup⟩ := @tokenURI_read_back encodeText (fun bytes => String.toList_ofList)
    sampleImages (fun sword => List.all_eq_true.mp (hplain sword)) windWorld 0
  obtain ⟨w', hw'⟩ : ∃ w', upgradeSword 25 0 windWorld = .ok ((), w') :=
    DynamicLemmas.upgrades_iff.mpr ⟨by decide, by decide, .inl (by decide)⟩
  obtain ⟨next, hnext, hafter⟩ := hup 25 0 w' hw'
  have hgod : next = .GOD_SWORD := by
    have hlevel : next.level = 2 := hnext
    revert hlevel
    cases next <;> decide
  subst hgod
  exact ⟨hread, w', hw', hafter⟩

end AdvFoundry.Nft.DynamicNFT
