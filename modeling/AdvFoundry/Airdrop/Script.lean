import AdvFoundry.Airdrop.Merkle

/-!
# The scripts of the airdrop

`merkle-trees-proofs/script/GenerateInput.s.sol` writes the whitelist to a file,
and `MakeMerkle.s.sol` reads it back and computes the leaves, the root and the
proofs. The cheat codes of the virtual machine they run in and the functions of
the library `murky` are parameters. What is logged is left out, and so is the path
of the files: a script is given the text it reads and gives the text it writes.
-/

namespace AdvFoundry.Airdrop

/-- The cheat codes. Those that may fail give `none`, and the script reverts. -/
structure Vm where
  toStringUint : Nat → String
  toStringAddress : Address → String
  toStringBytes32 : Bytes32 → String
  parseUint : String → Option Nat
  readStringArray : (json path : String) → Option (List String)
  readUint : (json path : String) → Option Nat
  readString : (json path : String) → Option String
  readAddress : (json path : String) → Option Address

/-- The functions of `Merkle` and `ScriptHelper`. -/
structure Murky where
  compareStrings : String → String → Bool
  ltrim64 : List UInt8 → List UInt8
  getProof : List Bytes32 → Nat → Option (List Bytes32)
  getRoot : List Bytes32 → Option Bytes32
  stringArrayToString : List String → String
  bytes32ArrayToString : List Bytes32 → String
  stringArrayToArrayString : List String → String

/-- The scripts have no errors of their own. -/
abbrev ScriptResult := Result Empty

/-- `xs[i]`, of a memory array. -/
def index {α : Type} (xs : List α) (i : Nat) : ScriptResult α :=
  match xs[i]? with
  | some x => .ok x
  | none => .error (.panic .indexOutOfBounds)

/-! ## `GenerateInput` -/

section GenerateInput

variable (V : Vm)

/-- `GenerateInput.createJSON`. The separators look at `length - 1`, which is
checked but only computed inside the loops. -/
def createJSON (types : List String) (whitelist : List Address) (amount : Nat) :
    ScriptResult String := do
  let json := "\x7b"
  let json := json ++ "\"types\": ["
  let json ← (List.range types.length).foldlM (fun json i => do
    let type ← index types i
    let json := json ++ "\"" ++ type ++ "\""
    let last ← subU types.length 1
    pure (if i < last then json ++ ", " else json)) json
  let json := json ++ "], "
  let json := json ++ "\"count\": " ++ V.toStringUint whitelist.length ++ ", "
  let json := json ++ "\"values\": \x7b"
  let json ← (List.range whitelist.length).foldlM (fun json i => do
    let account ← index whitelist i
    let json := json ++ "\"" ++ V.toStringUint i ++ "\": \x7b" ++ "\"0\": \"" ++
      V.toStringAddress account ++ "\", " ++ "\"1\": \"" ++ V.toStringUint amount ++ "\"\x7d"
    let last ← subU whitelist.length 1
    pure (if i < last then json ++ ", " else json)) json
  pure (json ++ "\x7d\x7d")

end GenerateInput

/-! ## `MakeMerkle` -/

/-- The storage of `MerkleScript`. -/
structure MerkleScript where
  elements : String
  types : List String
  count : Nat
  leafs : List Bytes32
  inputs : List String
  outputs : List String
  output : String

namespace MerkleScript

section

variable (V : Vm)

/-- The initial values of the storage, on a file with the text `elements`. -/
def init (elements : String) : ScriptResult MerkleScript := do
  let types ← Result.ofOption (V.readStringArray elements ".types")
  let count ← Result.ofOption (V.readUint elements ".count")
  pure
    { elements := elements
      types := types
      count := count
      leafs := List.replicate count 0
      inputs := List.replicate count ""
      outputs := List.replicate count ""
      output := "" }

def getValuesByIndex (i j : Nat) : String :=
  ".values." ++ V.toStringUint i ++ "." ++ V.toStringUint j

end

def generateJsonEntries (inputs proof root leaf : String) : String :=
  "\x7b" ++ "\"inputs\":" ++ inputs ++ "," ++ "\"proof\":" ++ proof ++ "," ++
    "\"root\":\"" ++ root ++ "\"," ++ "\"leaf\":\"" ++ leaf ++ "\"" ++ "\x7d"

variable (C : Crypto) (V : Vm) (M : Murky) (s : MerkleScript)

/-- The `j`-th value of the `i`-th row, as a word and as a text. A type that is
neither leaves both at their defaults. -/
def readValue (i j : Nat) (type : String) : ScriptResult (Bytes32 × String) :=
  if M.compareStrings type "address" then do
    let value ← Result.ofOption (V.readAddress s.elements (getValuesByIndex V i j))
    pure (BitVec.ofNat 256 value.val, V.toStringAddress value)
  else if M.compareStrings type "uint" then do
    let text ← Result.ofOption (V.readString s.elements (getValuesByIndex V i j))
    let value ← Result.ofOption (V.parseUint text)
    pure (BitVec.ofNat 256 value, V.toStringUint value)
  else pure (0, "")

/-- The inner loop: each pass writes its own entry of `data` and of `input`. -/
def readRow (i : Nat) : ScriptResult (List (Bytes32 × String)) :=
  s.types.zipIdx.mapM fun p => readValue V M s i p.2 p.1

/-- `keccak256(bytes.concat(keccak256(ltrim64(abi.encode(data)))))`. -/
def dataLeaf (data : List Bytes32) : Bytes32 :=
  C.keccak256 <| abiEncode [.bytes32 (C.keccak256 (M.ltrim64 (abiEncodeArray data)))]

/-- A pass of the first loop of `run`. -/
def readStep (s : MerkleScript) (i : Nat) : ScriptResult MerkleScript := do
  let row ← readRow V M s i
  pure { s with
    leafs := s.leafs.set i (dataLeaf C M (row.map Prod.fst))
    inputs := s.inputs.set i (M.stringArrayToString (row.map Prod.snd)) }

/-- A pass of the second loop of `run`. -/
def writeStep (s : MerkleScript) (i : Nat) : ScriptResult MerkleScript := do
  let proof ← Result.ofOption (M.getProof s.leafs i)
  let root ← Result.ofOption (M.getRoot s.leafs)
  let leaf ← index s.leafs i
  let input ← index s.inputs i
  pure { s with
    outputs := s.outputs.set i (generateJsonEntries input (M.bytes32ArrayToString proof)
      (V.toStringBytes32 root) (V.toStringBytes32 leaf)) }

/-- The first loop: the leaves of all rows. -/
def readRows : ScriptResult MerkleScript := (List.range s.count).foldlM (readStep C V M) s

/-- `run`; the text it writes is `output`. -/
def run : ScriptResult MerkleScript := do
  let s ← readRows C V M s
  let s ← (List.range s.count).foldlM (writeStep V M) s
  pure { s with output := M.stringArrayToArrayString s.outputs }

end MerkleScript

end AdvFoundry.Airdrop
