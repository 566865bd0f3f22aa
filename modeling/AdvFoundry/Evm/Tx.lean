import Mathlib.Algebra.Order.Ring.Int
import Mathlib.Algebra.Order.Ring.Nat
import Mathlib.Data.Fintype.EquivFin
import Mathlib.Logic.Function.Basic

/-!
# Contract calls as state transformers with revert

A Solidity function that may write storage is a value of `Tx ε σ α`: from the
storage `σ` it either returns a value and the new storage, or reverts with a
reason over the contract's own error type `ε`. A revert carries no storage, so
a failed call leaves the caller's storage as it was.

A `view` function only reads, so it is a plain `Result ε α` of the storage it
is given; `Tx.view` runs one inside a call.

The proofs of this development never unfold the monad. Each function gets one
lemma that says when it returns and with which storage, and that lemma is
obtained from the rules `Tx.bind_ok`, `Tx.revertIf_ok`, `Tx.view_ok`,
`Tx.modify_ok` and `Tx.call_ok` below.
-/

namespace AdvFoundry

/-- A 160-bit account address. -/
structure Address where
  val : Fin (2 ^ 160)
  deriving DecidableEq

/-- There are finitely many addresses. The definition is sealed, so that no
proof ever starts to enumerate them. -/
@[irreducible] def Address.fintype : Fintype Address :=
  Fintype.ofEquiv (Fin (2 ^ 160)) ⟨Address.mk, Address.val, fun _ => rfl, fun _ => rfl⟩

instance : Fintype Address := Address.fintype

instance (n : Nat) : OfNat Address n := ⟨⟨Fin.ofNat _ n⟩⟩

instance : Inhabited Address := ⟨0⟩

/-- The number of `uint256` values. -/
def uintSize : Nat := 2 ^ 256

/-- `type(uint256).max`. -/
def uintMax : Nat := 2 ^ 256 - 1

/-- The panics of checked Solidity arithmetic and array access. -/
inductive Panic
  | arithmetic
  | divisionByZero
  | indexOutOfBounds
  deriving DecidableEq

/-- Why a call reverted: a panic, a revert without data (a call to an account
without code, a failed ABI decoding), or one of the errors `ε` of the contract. -/
inductive Revert (ε : Type)
  | panic (p : Panic)
  | empty
  | error (e : ε)
  deriving DecidableEq

/-- The revert reason of a callee as its caller passes it on. -/
def Revert.map {ε δ : Type} (f : ε → δ) : Revert ε → Revert δ
  | .panic p => .panic p
  | .empty => .empty
  | .error e => .error (f e)

/-- The outcome of a `view` or `pure` function. -/
abbrev Result (ε : Type) : Type → Type := Except (Revert ε)

/-! ## Checked arithmetic -/

section Arithmetic

variable {ε : Type}

/-- `a + b` on `uint256`, checked. -/
def addU (a b : Nat) : Result ε Nat :=
  if a + b < uintSize then .ok (a + b) else .error (.panic .arithmetic)

/-- `a - b` on `uint256`, checked. -/
def subU (a b : Nat) : Result ε Nat :=
  if b ≤ a then .ok (a - b) else .error (.panic .arithmetic)

/-- `a * b` on `uint256`, checked. -/
def mulU (a b : Nat) : Result ε Nat :=
  if a * b < uintSize then .ok (a * b) else .error (.panic .arithmetic)

/-- `a / b` on `uint256`: rounds down and panics on zero. -/
def divU (a b : Nat) : Result ε Nat :=
  if b = 0 then .error (.panic .divisionByZero) else .ok (a / b)

@[simp] theorem addU_ok {a b r : Nat} :
    (addU a b : Result ε Nat) = .ok r ↔ a + b < uintSize ∧ a + b = r := by
  unfold addU; split <;> simp [*]

@[simp] theorem subU_ok {a b r : Nat} :
    (subU a b : Result ε Nat) = .ok r ↔ b ≤ a ∧ a - b = r := by
  unfold subU; split <;> simp [*]

@[simp] theorem mulU_ok {a b r : Nat} :
    (mulU a b : Result ε Nat) = .ok r ↔ a * b < uintSize ∧ a * b = r := by
  unfold mulU; split <;> simp [*]

@[simp] theorem divU_ok {a b r : Nat} :
    (divU a b : Result ε Nat) = .ok r ↔ b ≠ 0 ∧ a / b = r := by
  unfold divU; split <;> simp [*]

end Arithmetic

/-! ## Results -/

namespace Result

variable {ε α β : Type}

/-- Solidity's `if (p) revert e;` in a `view` function. -/
def revertIf (p : Prop) [Decidable p] (e : ε) : Result ε Unit :=
  if p then .error (.error e) else .ok ()

@[simp] theorem revertIf_ok {p : Prop} [Decidable p] {e : ε} {u : Unit} :
    revertIf p e = .ok u ↔ ¬ p := by
  unfold revertIf; split <;> simp [*]

/-- A value that another contract was asked for, reverting when it has none. -/
def ofOption (x : Option α) : Result ε α :=
  match x with
  | none => .error .empty
  | some a => .ok a

@[simp] theorem ofOption_ok {x : Option α} {a : α} :
    (ofOption x : Result ε α) = .ok a ↔ x = some a := by
  cases x <;> simp [ofOption]

@[simp] theorem bind_ok {x : Result ε α} {f : α → Result ε β} {r : β} :
    (x >>= f) = .ok r ↔ ∃ a, x = .ok a ∧ f a = .ok r := by
  cases x <;> simp [Bind.bind, Except.bind]

@[simp] theorem pure_ok {a r : α} : (pure a : Result ε α) = .ok r ↔ a = r := by
  simp [Pure.pure, Except.pure]

/-- A step reverts with a reason when it does so itself, or passes on to a step
that does. -/
theorem bind_error {x : Result ε α} {f : α → Result ε β} {e : Revert ε} :
    (x >>= f) = .error e ↔ x = .error e ∨ ∃ a, x = .ok a ∧ f a = .error e := by
  cases x <;> simp [Bind.bind, Except.bind]

theorem pure_ne_error {a : α} {e : Revert ε} : (pure a : Result ε α) ≠ .error e := by
  intro h
  cases h

theorem revertIf_error {p : Prop} [Decidable p] {e₀ : ε} {e : Revert ε} :
    revertIf p e₀ = .error e ↔ p ∧ e = .error e₀ := by
  unfold revertIf; split <;> simp [*, eq_comm]

/-- Checked arithmetic, and a call that finds no contract, never give one of the
contract's own errors. -/
theorem addU_ne_error {a b : Nat} {e : ε} : (addU a b : Result ε Nat) ≠ .error (.error e) := by
  unfold addU; split <;> simp

theorem subU_ne_error {a b : Nat} {e : ε} : (subU a b : Result ε Nat) ≠ .error (.error e) := by
  unfold subU; split <;> simp

theorem mulU_ne_error {a b : Nat} {e : ε} : (mulU a b : Result ε Nat) ≠ .error (.error e) := by
  unfold mulU; split <;> simp

theorem divU_ne_error {a b : Nat} {e : ε} : (divU a b : Result ε Nat) ≠ .error (.error e) := by
  unfold divU; split <;> simp

theorem ofOption_ne_error {x : Option α} {e : ε} :
    (ofOption x : Result ε α) ≠ .error (.error e) := by
  cases x <;> simp [ofOption]

end Result

/-! ## Calls -/

/-- A contract function: from the storage, a value and the new storage, or a
revert. -/
def Tx (ε σ α : Type) : Type := σ → Except (Revert ε) (α × σ)

namespace Tx

variable {ε δ σ τ α β : Type}

instance : Monad (Tx ε σ) where
  pure a := fun s => .ok (a, s)
  bind x f := fun s =>
    match x s with
    | .ok (a, s') => f a s'
    | .error e => .error e

/-- Solidity's `if (p) revert e;`. -/
def revertIf (p : Prop) [Decidable p] (e : ε) : Tx ε σ Unit := fun s =>
  if p then .error (.error e) else .ok ((), s)

/-- Reads the storage. -/
def get : Tx ε σ σ := fun s => .ok (s, s)

/-- Runs a `view` function on the current storage. -/
def view (f : σ → Result ε α) : Tx ε σ α := fun s =>
  match f s with
  | .ok a => .ok (a, s)
  | .error e => .error e

/-- Writes the storage. -/
def modify (f : σ → σ) : Tx ε σ Unit := fun s => .ok ((), f s)

/-- Writes the storage, unless the write is refused. -/
def tryModify (f : σ → Result ε σ) : Tx ε σ Unit := fun s =>
  match f s with
  | .ok s' => .ok ((), s')
  | .error e => .error e

/-- A call into the part `τ` of the storage, by a function of another contract
or of a base contract. Its errors are passed on through `inj`. -/
def call (read : σ → τ) (write : τ → σ → σ) (inj : δ → ε) (x : Tx δ τ α) : Tx ε σ α := fun s =>
  match x (read s) with
  | .ok (a, t) => .ok (a, write t s)
  | .error e => .error (e.map inj)

@[simp] theorem bind_ok {x : Tx ε σ α} {f : α → Tx ε σ β} {s : σ} {r : β × σ} :
    (x >>= f) s = .ok r ↔ ∃ a s', x s = .ok (a, s') ∧ f a s' = .ok r := by
  show (match x s with
    | .ok (a, s') => f a s'
    | .error e => .error e) = .ok r ↔ _
  cases h : x s with
  | error e => simp
  | ok p => cases p; simp

@[simp] theorem pure_ok {a b : α} {s s' : σ} :
    (pure a : Tx ε σ α) s = .ok (b, s') ↔ b = a ∧ s' = s := by
  show Except.ok (a, s) = Except.ok (b, s') ↔ _
  simp [eq_comm]

@[simp] theorem revertIf_ok {p : Prop} [Decidable p] {e : ε} {s s' : σ} {u : Unit} :
    (revertIf p e : Tx ε σ Unit) s = .ok (u, s') ↔ ¬ p ∧ s' = s := by
  unfold revertIf; split <;> simp [*, eq_comm]

@[simp] theorem get_ok {s a s' : σ} :
    (get : Tx ε σ σ) s = .ok (a, s') ↔ a = s ∧ s' = s := by
  simp [get, eq_comm]

@[simp] theorem view_ok {f : σ → Result ε α} {s s' : σ} {a : α} :
    view f s = .ok (a, s') ↔ f s = .ok a ∧ s' = s := by
  unfold view
  cases f s <;> simp [eq_comm]

@[simp] theorem modify_ok {f : σ → σ} {s s' : σ} {u : Unit} :
    (modify f : Tx ε σ Unit) s = .ok (u, s') ↔ s' = f s := by
  simp [modify, eq_comm]

@[simp] theorem tryModify_ok {f : σ → Result ε σ} {s s' : σ} {u : Unit} :
    tryModify f s = .ok (u, s') ↔ f s = .ok s' := by
  unfold tryModify
  cases f s <;> simp

@[simp] theorem call_ok {read : σ → τ} {write : τ → σ → σ} {inj : δ → ε} {x : Tx δ τ α} {s s' : σ}
    {a : α} :
    call read write inj x s = .ok (a, s') ↔ ∃ t, x (read s) = .ok (a, t) ∧ s' = write t s := by
  unfold call
  cases h : x (read s) with
  | error e => simp
  | ok p =>
    obtain ⟨b, t⟩ := p
    simp only [Except.ok.injEq, Prod.mk.injEq]
    constructor
    · rintro ⟨rfl, rfl⟩
      exact ⟨t, ⟨rfl, rfl⟩, rfl⟩
    · rintro ⟨_, ⟨rfl, rfl⟩, rfl⟩
      exact ⟨rfl, rfl⟩

/-! ## What a call does not write -/

/-- The part `f` of the storage is the same after every call of `x` that returns. -/
def Preserves {γ : Type} (f : σ → γ) (x : Tx ε σ α) : Prop :=
  ∀ s a s', x s = .ok (a, s') → f s' = f s

section Preserves

variable {γ : Type} {f : σ → γ}

theorem preserves_bind {x : Tx ε σ α} {g : α → Tx ε σ β} (hx : Preserves f x)
    (hg : ∀ a, Preserves f (g a)) : Preserves f (x >>= g) := by
  intro s b s' h
  obtain ⟨a, s₁, h₁, h₂⟩ := bind_ok.mp h
  exact (hg a s₁ b s' h₂).trans (hx s a s₁ h₁)

theorem preserves_pure {a : α} : Preserves f (pure a : Tx ε σ α) :=
  fun _ _ _ h => congrArg f (pure_ok.mp h).2

theorem preserves_get : Preserves f (get : Tx ε σ σ) :=
  fun _ _ _ h => congrArg f (get_ok.mp h).2

theorem preserves_revertIf {p : Prop} [Decidable p] {e : ε} :
    Preserves f (revertIf p e : Tx ε σ Unit) :=
  fun _ _ _ h => congrArg f (revertIf_ok.mp h).2

theorem preserves_view {v : σ → Result ε α} : Preserves f (view v) :=
  fun _ _ _ h => congrArg f (view_ok.mp h).2

theorem preserves_modify {g : σ → σ} (hg : ∀ s, f (g s) = f s) :
    Preserves f (modify g : Tx ε σ Unit) := by
  intro s u s' h
  rw [modify_ok.mp h]
  exact hg s

theorem preserves_call {read : σ → τ} {write : τ → σ → σ} {inj : δ → ε} {x : Tx δ τ α}
    (hwrite : ∀ t s, f (write t s) = f s) : Preserves f (call read write inj x) := by
  intro s a s' h
  obtain ⟨t, -, rfl⟩ := call_ok.mp h
  exact hwrite t s

end Preserves

/-! A call that reverts, for the statements about which error a call can give. -/

theorem bind_error {x : Tx ε σ α} {f : α → Tx ε σ β} {s : σ} {e : Revert ε} :
    (x >>= f) s = .error e ↔
      x s = .error e ∨ ∃ a s', x s = .ok (a, s') ∧ f a s' = .error e := by
  show (match x s with
    | .ok (a, s') => f a s'
    | .error e => .error e) = .error e ↔ _
  cases h : x s with
  | error e' => simp
  | ok p => cases p; simp

theorem pure_ne_error {a : α} {s : σ} {e : Revert ε} : (pure a : Tx ε σ α) s ≠ .error e := by
  intro h
  cases h

theorem get_ne_error {s : σ} {e : Revert ε} : (get : Tx ε σ σ) s ≠ .error e := by
  intro h
  cases h

theorem modify_ne_error {f : σ → σ} {s : σ} {e : Revert ε} :
    (modify f : Tx ε σ Unit) s ≠ .error e := by
  intro h
  cases h

theorem revertIf_error {p : Prop} [Decidable p] {e₀ : ε} {s : σ} {e : Revert ε} :
    (revertIf p e₀ : Tx ε σ Unit) s = .error e ↔ p ∧ e = .error e₀ := by
  unfold revertIf; split <;> simp [*, eq_comm]

theorem view_error {f : σ → Result ε α} {s : σ} {e : Revert ε} :
    view f s = .error e ↔ f s = .error e := by
  unfold view
  cases f s <;> simp

theorem tryModify_error {f : σ → Result ε σ} {s : σ} {e : Revert ε} :
    tryModify f s = .error e ↔ f s = .error e := by
  unfold tryModify
  cases f s <;> simp

/-- A call passes on the callee's own errors, and only these become its own. -/
theorem call_error {read : σ → τ} {write : τ → σ → σ} {inj : δ → ε} {x : Tx δ τ α} {s : σ} {e : ε} :
    call read write inj x s = .error (.error e) ↔
      ∃ d, x (read s) = .error (.error d) ∧ e = inj d := by
  unfold call
  cases h : x (read s) with
  | ok p => simp
  | error r => cases r <;> simp [Revert.map, eq_comm]

end Tx

end AdvFoundry
