import AdvFoundry.Evm.Tx

/-!
# OpenZeppelin Ownable and ReentrancyGuard

The two modifiers the engines and their stablecoins use, for any contract
whose storage holds the owner or the guard.
-/

namespace AdvFoundry

/-- The errors of `Ownable`. -/
inductive OwnableError
  | unauthorizedAccount (account : Address)
  | invalidOwner (owner : Address)
  deriving DecidableEq

namespace Ownable

/-- `onlyOwner`, for a call by `sender`. -/
def onlyOwner (sender owner : Address) : Result OwnableError Unit :=
  Result.revertIf (owner ≠ sender) (.unauthorizedAccount sender)

/-- `transferOwnership`, on the owner alone. -/
def transferOwnership (sender newOwner : Address) : Tx OwnableError Address Unit := do
  Tx.view fun owner => onlyOwner sender owner
  Tx.revertIf (newOwner = 0) (.invalidOwner 0)
  Tx.modify fun _ => newOwner

/-- `renounceOwnership`, on the owner alone. -/
def renounceOwnership (sender : Address) : Tx OwnableError Address Unit := do
  Tx.view fun owner => onlyOwner sender owner
  Tx.modify fun _ => 0

variable {sender newOwner owner owner' : Address} {u : Unit}

@[simp] theorem onlyOwner_ok : onlyOwner sender owner = .ok u ↔ owner = sender := by
  simp [onlyOwner]

theorem transferOwnership_ok :
    transferOwnership sender newOwner owner = .ok (u, owner') ↔
      owner = sender ∧ newOwner ≠ 0 ∧ owner' = newOwner := by
  simp [transferOwnership]

theorem renounceOwnership_ok :
    renounceOwnership sender owner = .ok (u, owner') ↔ owner = sender ∧ owner' = 0 := by
  simp [renounceOwnership]

end Ownable

section Guard

variable {ε σ α : Type} {entered : σ → Bool} {setEntered : Bool → σ → σ} {err : ε}
  {body : Tx ε σ α} {s s' : σ} {a : α}

/-- `nonReentrant`: refuse a call while one is running, else run the body with
the guard taken and release it afterwards. -/
def nonReentrant (entered : σ → Bool) (setEntered : Bool → σ → σ) (err : ε) (body : Tx ε σ α) :
    Tx ε σ α := do
  let s ← Tx.get
  Tx.revertIf (entered s = true) err
  Tx.modify (setEntered true)
  let a ← body
  Tx.modify (setEntered false)
  pure a

theorem nonReentrant_ok :
    nonReentrant entered setEntered err body s = .ok (a, s') ↔
      entered s = false ∧
        ∃ s₁, body (setEntered true s) = .ok (a, s₁) ∧ s' = setEntered false s₁ := by
  simp only [nonReentrant, Tx.bind_ok, Tx.get_ok, Tx.revertIf_ok, Tx.modify_ok, Tx.pure_ok,
    Bool.not_eq_true]
  constructor
  · rintro ⟨_, _, ⟨rfl, rfl⟩, _, _, ⟨hg, rfl⟩, _, _, rfl, _, s₁, hb, _, _, rfl, rfl, rfl⟩
    exact ⟨hg, s₁, hb, rfl⟩
  · rintro ⟨hg, s₁, hb, rfl⟩
    exact ⟨s, s, ⟨rfl, rfl⟩, (), s, ⟨hg, rfl⟩, (), _, rfl, a, s₁, hb, (), _, rfl, rfl, rfl⟩

theorem nonReentrant_error {e : Revert ε}
    (h : nonReentrant entered setEntered err body s = .error e) :
    e = .error err ∨ body (setEntered true s) = .error e := by
  simp only [nonReentrant, Tx.bind_error, Tx.get_ne_error, Tx.get_ok, Tx.revertIf_error,
    Tx.revertIf_ok, Tx.modify_ne_error, Tx.modify_ok, Tx.pure_ne_error, and_false, exists_false,
    or_false, false_or] at h
  obtain ⟨_, _, ⟨rfl, rfl⟩, ⟨-, rfl⟩ | ⟨_, _, ⟨-, rfl⟩, _, _, rfl, h⟩⟩ := h
  · exact .inl rfl
  · exact .inr h

end Guard

end AdvFoundry
