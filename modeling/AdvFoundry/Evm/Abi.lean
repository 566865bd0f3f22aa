import AdvFoundry.Evm.Tx

/-!
# Bytes that are hashed

`abi.encode` of values of static types, a struct of such values included, is
their 32-byte words one after another. An array is dynamic: on its own it is
encoded as an offset, a length, and then the words of its elements.

`abiEncode_cons_inj`: equal encodings have equal words, one by one.
-/

namespace AdvFoundry

/-- A `bytes32`. -/
abbrev Bytes32 := BitVec 256

/-- The 32 bytes of a word, the most significant first. -/
def wordBytes (n : Nat) : List UInt8 :=
  (List.range 32).map fun i => UInt8.ofNat (n / 256 ^ (31 - i))

/-- The bytes of a text of ASCII characters. -/
def asciiBytes (text : String) : List UInt8 := text.toList.map fun c => UInt8.ofNat c.toNat

/-- A value of a static type as `abi.encode` sees it. -/
inductive AbiWord
  | address (a : Address)
  | uint256 (n : Nat)
  | bytes32 (b : Bytes32)

def AbiWord.toNat : AbiWord → Nat
  | address a => a.val
  | uint256 n => n
  | bytes32 b => BitVec.toNat b

/-- `abi.encode`, for values of static types. -/
def abiEncode (values : List AbiWord) : List UInt8 := values.flatMap fun v => wordBytes v.toNat

/-- `abi.encode` of a `bytes32[]`: the array starts 32 bytes in, with its length. -/
def abiEncodeArray (data : List Bytes32) : List UInt8 :=
  wordBytes 32 ++ wordBytes data.length ++ abiEncode (data.map .bytes32)

/-! ## The words can be read back -/

section Inverse

variable {n m : Nat} {v w : AbiWord} {vs ws : List AbiWord}

@[simp] theorem length_wordBytes : (wordBytes n).length = 32 := by simp [wordBytes]

/-- The bytes of a word are its digits in base 256. -/
theorem wordBytes_inj (hn : n < 2 ^ 256) (hm : m < 2 ^ 256) (h : wordBytes n = wordBytes m) :
    n = m := by
  have hdigit (k : Nat) (hk : k < 32) : n / 256 ^ k % 256 = m / 256 ^ k % 256 := by
    have hbyte := List.map_inj_left.mp h (31 - k) (List.mem_range.mpr (by omega))
    rw [show 31 - (31 - k) = k by omega] at hbyte
    simpa using congrArg UInt8.toNat hbyte
  have hmod (k : Nat) (hk : k ≤ 32) : n % 256 ^ k = m % 256 ^ k := by
    induction k with
    | zero => rw [Nat.pow_zero, Nat.mod_one, Nat.mod_one]
    | succ k ih => rw [Nat.mod_pow_succ, Nat.mod_pow_succ, ih (by omega), hdigit k (by omega)]
  have hpow : (256 : Nat) ^ 32 = 2 ^ 256 := by decide
  have hall := hmod 32 (Nat.le_refl 32)
  rwa [hpow, Nat.mod_eq_of_lt hn, Nat.mod_eq_of_lt hm] at hall

theorem abiEncode_cons : abiEncode (v :: vs) = wordBytes v.toNat ++ abiEncode vs := rfl

theorem abiEncode_cons_inj (hv : v.toNat < 2 ^ 256) (hw : w.toNat < 2 ^ 256)
    (h : abiEncode (v :: vs) = abiEncode (w :: ws)) :
    v.toNat = w.toNat ∧ abiEncode vs = abiEncode ws := by
  rw [abiEncode_cons, abiEncode_cons] at h
  obtain ⟨hhead, htail⟩ := List.append_inj h (length_wordBytes.trans length_wordBytes.symm)
  exact ⟨wordBytes_inj hv hw hhead, htail⟩

/-- So the hash of a `bytes32` that comes first is read back. -/
theorem abiEncode_bytes32_inj {b b' : Bytes32}
    (h : abiEncode (.bytes32 b :: vs) = abiEncode (.bytes32 b' :: ws)) :
    b = b' ∧ abiEncode vs = abiEncode ws := by
  obtain ⟨hhead, htail⟩ := abiEncode_cons_inj (v := .bytes32 b) (w := .bytes32 b') b.isLt b'.isLt h
  exact ⟨BitVec.eq_of_toNat_eq hhead, htail⟩

end Inverse

end AdvFoundry
