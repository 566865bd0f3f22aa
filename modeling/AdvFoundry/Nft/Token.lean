import AdvFoundry.Evm.Recorder
import AdvFoundry.OpenZeppelin.ERC721

/-!
# Contracts that inherit ERC721

A contract over `ERC721` has the storage of `ERC721` and its own, `τ`. What it
inherits works on the first and leaves the second alone. `_safeMint` and
`safeTransferFrom` call the receiver of the token when it has code, which hands
over control with the token already moved.
-/

namespace AdvFoundry.Nft

variable {τ : Type}

/-- The storage of a contract that inherits `ERC721`. -/
structure World (τ : Type) where
  erc721 : ERC721
  own : τ

/-- The errors of `ERC721`, the revert of a receiver, which is passed on with its data
(without data it shows as `ERC721InvalidReceiver`), and the texts of `revert`. -/
inductive NftError
  | erc721 (e : ERC721Error)
  | receiverReverted (receiver : Address)
  | reason (text : String)
  deriving DecidableEq

/-- The arguments of `onERC721Received` that the contracts do not make up, and the
account that is called. -/
structure Received where
  dst : Address
  operator : Address
  src : Address
  tokenId : Nat

abbrev NftTx (τ : Type) := Tx NftError (World τ)

/-- The receiver answers a `bytes4`. -/
abbrev NftProc (τ : Type) := Proc NftError (World τ) Received Nat

/-- `IERC721Receiver.onERC721Received.selector`. -/
def onERC721Received : Nat := 0x150b7a02

/-- A function of `ERC721`. -/
def super {α : Type} (x : Tx ERC721Error ERC721 α) : NftTx τ α :=
  Tx.call (·.erc721) (fun t w => { w with erc721 := t }) .erc721 x

def modifyOwn (f : τ → τ) : NftTx τ Unit := Tx.modify fun w => { w with own := f w.own }

/-- `ERC721Utils.checkOnERC721Received`; `code` says which accounts have code. A
receiver that reverts, or answers anything but the selector, makes the call
revert. -/
def checkOnERC721Received (code : Address → Bool) (operator src dst : Address) (tokenId : Nat) :
    NftProc τ Unit := do
  if code dst then
    match ← Proc.call ⟨dst, operator, src, tokenId⟩ with
    | some retval => .tx (Tx.revertIf (retval ≠ onERC721Received) (.erc721 (.invalidReceiver dst)))
    | none => .tx (Tx.revertIf True (.receiverReverted dst))
  else pure ()

def _safeMint (code : Address → Bool) (sender dst : Address) (tokenId : Nat) : NftProc τ Unit := do
  .tx (super (ERC721._mint dst tokenId))
  checkOnERC721Received code sender 0 dst tokenId

def safeTransferFrom (code : Address → Bool) (sender src dst : Address) (tokenId : Nat) :
    NftProc τ Unit := do
  .tx (super (ERC721.transferFrom sender src dst tokenId))
  checkOnERC721Received code sender src dst tokenId

/-- The inherited functions anyone may call. -/
inductive Inherited
  | call (op : ERC721.Op)
  | safeTransferFrom (src dst : Address) (tokenId : Nat)

def Inherited.exec (code : Address → Bool) (sender : Address) : Inherited → NftProc τ Unit
  | call op => .tx (super (op.exec sender))
  | safeTransferFrom src dst id => Nft.safeTransferFrom code sender src dst id

/-! ## Rules for the proofs -/

section Rules

variable {w w' : World τ} {code : Address → Bool} {operator sender src dst : Address} {tokenId : Nat}

theorem super_ok {α : Type} {x : Tx ERC721Error ERC721 α} {a : α} :
    (super x : NftTx τ α) w = .ok (a, w') ↔
      ∃ t, x w.erc721 = .ok (a, t) ∧ w' = { w with erc721 := t } := by
  simp [super]

theorem modifyOwn_ok {f : τ → τ} {u : Unit} :
    modifyOwn f w = .ok (u, w') ↔ w' = { w with own := f w.own } := by
  simp [modifyOwn]

/-- What is left of a call when the receiver has answered. -/
def received (dst : Address) (rest : NftProc τ Unit) :
    Option Nat → World τ → Outcome NftError (World τ) Received Nat Unit
  | some retval, w =>
    if retval = onERC721Received then rest w else .reverted (.error (.erc721 (.invalidReceiver dst)))
  | none, _ => .reverted (.error (.receiverReverted dst))

theorem check_bind (rest : NftProc τ Unit) (w : World τ) :
    ((checkOnERC721Received code operator src dst tokenId >>= fun _ => rest) w) =
      if code dst then .waiting ⟨dst, operator, src, tokenId⟩ w (received dst rest) else rest w := by
  unfold checkOnERC721Received
  split
  · show Outcome.waiting _ w _ = _
    congr
    funext a w'
    cases a with
    | none => rfl
    | some retval =>
      rcases eq_or_ne retval onERC721Received with rfl | h
      · rfl
      · simp only [received, if_neg h]
        exact Proc.tx_bind_error (Tx.revertIf_error.mpr ⟨h, rfl⟩)
  · rfl

/-! ### With a record that a hand-over does not change -/

variable {ℓ η : Type} {R : Recorder ℓ (World τ) Received η} {I : World τ × η → Prop}
  {G : World τ × η → World τ × η → Prop} {l : ℓ} {start : World τ} {h : η}
  {Q : Unit → World τ × η → Prop}

/-- The rest of a call after the receiver was called, if it has code: whatever the
calls inside did, `G` holds of it. -/
theorem relies_check (rest : NftProc τ Unit)
    (hquery : ∀ x w' h', I (w', h') → R.onQuery l start x w' h' = h') (hrefl : ∀ p, G p p)
    (hw : I (w, h))
    (hrest : ∀ w' h', I (w', h') → G (w, h) (w', h') →
      ((rest w').recorded R l start h').Relies I G Q) :
    (((checkOnERC721Received code operator src dst tokenId >>= fun _ => rest) w).recorded R l start
      h).Relies I G Q := by
  rw [check_bind]
  split
  · refine ⟨by rw [hquery _ _ _ hw]; exact hw, fun a p hp hG => ?_⟩
    rw [hquery _ _ _ hw] at hG
    cases a with
    | none => trivial
    | some retval =>
      show ((if retval = onERC721Received then rest p.1 else _).recorded R l start p.2).Relies I G Q
      split
      · exact hrest p.1 p.2 hp hG
      · trivial
  · exact hrest w h hw (hrefl _)

/-- The inherited functions change the `ERC721` part only, and there neither
create nor destroy tokens. -/
theorem relies_inherited {op : Inherited}
    (hquery : ∀ x w' h', I (w', h') → R.onQuery l w x w' h' = h')
    (hreturn : ∀ w' h', I (w', h') → R.onReturn l w w' h' = h') (hrefl : ∀ p, G p p)
    (htrans : ∀ p p' p'', G p p' → G p' p'' → G p p'') (hsender : sender ≠ 0)
    (hsane : w.erc721.Sane)
    (hmove : ∀ t : ERC721, t.Sane → (∀ id, t.owners id = 0 ↔ w.erc721.owners id = 0) →
      I ({ w with erc721 := t }, h) ∧ G (w, h) ({ w with erc721 := t }, h)) :
    ((op.exec code sender w).recorded R l w h).Relies I G fun _ p => I p ∧ G (w, h) p := by
  have hmoved : ∀ (op : ERC721.Op) w', super (op.exec sender) w = .ok ((), w') →
      I (w', h) ∧ G (w, h) (w', h) := by
    intro op w' hw'
    obtain ⟨t, ht, rfl⟩ := super_ok.mp hw'
    obtain ⟨hsane', htokens⟩ := ERC721.exec_tokens hsane hsender ht
    exact hmove t hsane' htokens
  cases op with
  | call op =>
    refine Outcome.relies_recorded_return fun w' hw' => ?_
    have hkept := hmoved op w' hw'
    rw [hreturn _ _ hkept.1]
    exact hkept
  | safeTransferFrom src dst id =>
    refine Outcome.relies_recorded_tx fun _ w' hw' => ?_
    obtain ⟨hI, hG⟩ := hmoved (.transferFrom src dst id) w' hw'
    rw [← Outcome.bind_pure (checkOnERC721Received code sender src dst id w')]
    refine relies_check (pure ()) hquery hrefl hI fun w'' h'' hI' hG' => ?_
    show I (w'', R.onReturn l w w'' h'') ∧ G (w, h) (w'', R.onReturn l w w'' h'')
    rw [hreturn _ _ hI']
    exact ⟨hI', htrans _ _ _ hG hG'⟩

end Rules

end AdvFoundry.Nft
