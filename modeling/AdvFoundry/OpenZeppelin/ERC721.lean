import AdvFoundry.Evm.Tx

/-!
# ERC721

The storage and the functions of OpenZeppelin's `ERC721` (version 5) that keep
control. The two that call the receiver of a token are in `Nft/Token`, since what
the receiver may do depends on the contract that inherits them.

The authorisation check takes the owner first and the spender second, and its
result is not symmetric in them: `_isAuthorized_iff`.
-/

namespace AdvFoundry

open Function

/-- Storage of `ERC721`: `_owners`, `_balances`, `_tokenApprovals` and
`_operatorApprovals`. A token without owner does not exist. -/
structure ERC721 where
  owners : Nat → Address
  balances : Address → Nat
  tokenApprovals : Nat → Address
  operatorApprovals : Address → Address → Bool

inductive ERC721Error
  | nonexistentToken (tokenId : Nat)
  | incorrectOwner (sender : Address) (tokenId : Nat) (owner : Address)
  | invalidSender (sender : Address)
  | invalidReceiver (receiver : Address)
  | insufficientApproval (operator : Address) (tokenId : Nat)
  | invalidApprover (approver : Address)
  | invalidOperator (operator : Address)
  deriving DecidableEq

namespace ERC721

abbrev ERC721Tx := Tx ERC721Error ERC721

/-- `ERC721`'s constructor: name and symbol are not part of the state. -/
def empty : ERC721 where
  owners := fun _ => 0
  balances := fun _ => 0
  tokenApprovals := fun _ => 0
  operatorApprovals := fun _ _ => false

/-! ## Views -/

section Views

variable (t : ERC721)

abbrev _ownerOf (tokenId : Nat) : Address := t.owners tokenId

abbrev _getApproved (tokenId : Nat) : Address := t.tokenApprovals tokenId

abbrev isApprovedForAll (owner operator : Address) : Bool := t.operatorApprovals owner operator

def _requireOwned (tokenId : Nat) : Result ERC721Error Address := do
  let owner := t._ownerOf tokenId
  Result.revertIf (owner = 0) (.nonexistentToken tokenId)
  pure owner

def ownerOf (tokenId : Nat) : Result ERC721Error Address := t._requireOwned tokenId

def _isAuthorized (owner spender : Address) (tokenId : Nat) : Bool :=
  decide (spender ≠ 0) &&
    (decide (owner = spender) || t.isApprovedForAll owner spender ||
      decide (t._getApproved tokenId = spender))

def _checkAuthorized (owner spender : Address) (tokenId : Nat) : Result ERC721Error Unit :=
  if t._isAuthorized owner spender tokenId then pure ()
  else if owner = 0 then .error (.error (.nonexistentToken tokenId))
  else .error (.error (.insufficientApproval spender tokenId))

end Views

/-! ## Writes -/

/-- `_approve` with `emitEvent`: without an event and without `auth` the owner is
not read. -/
def _approve (dst : Address) (tokenId : Nat) (auth : Address) (emitEvent : Bool) : ERC721Tx Unit := do
  Tx.view fun t =>
    if emitEvent ∨ auth ≠ 0 then do
      let owner ← t._requireOwned tokenId
      Result.revertIf (auth ≠ 0 ∧ owner ≠ auth ∧ t.isApprovedForAll owner auth = false)
        (.invalidApprover auth)
    else pure ()
  Tx.modify fun t => { t with tokenApprovals := update t.tokenApprovals tokenId dst }

/-- The part of `_update` for the previous owner: the approval is cleared, and the
balance falls, `unchecked`. -/
def leave (src : Address) (tokenId : Nat) : ERC721Tx Unit :=
  if src ≠ 0 then do
    _approve 0 tokenId 0 false
    Tx.modify fun t => { t with
      balances := update t.balances src ((t.balances src + uintMax) % uintSize) }
  else pure ()

/-- The part for the new owner. -/
def arrive (dst : Address) : ERC721Tx Unit :=
  if dst ≠ 0 then
    Tx.modify fun t => { t with balances := update t.balances dst ((t.balances dst + 1) % uintSize) }
  else pure ()

def _update (dst : Address) (tokenId : Nat) (auth : Address) : ERC721Tx Address := do
  let t ← Tx.get
  let src := t._ownerOf tokenId
  Tx.view fun t => if auth ≠ 0 then t._checkAuthorized src auth tokenId else pure ()
  leave src tokenId
  arrive dst
  Tx.modify fun t => { t with owners := update t.owners tokenId dst }
  pure src

def _mint (dst : Address) (tokenId : Nat) : ERC721Tx Unit := do
  Tx.revertIf (dst = 0) (.invalidReceiver 0)
  let previousOwner ← _update dst tokenId 0
  Tx.revertIf (previousOwner ≠ 0) (.invalidSender 0)

def approve (sender dst : Address) (tokenId : Nat) : ERC721Tx Unit :=
  _approve dst tokenId sender true

def setApprovalForAll (sender operator : Address) (approved : Bool) : ERC721Tx Unit := do
  Tx.revertIf (operator = 0) (.invalidOperator operator)
  Tx.modify fun t => { t with
    operatorApprovals := update t.operatorApprovals sender
      (update (t.operatorApprovals sender) operator approved) }

def transferFrom (sender src dst : Address) (tokenId : Nat) : ERC721Tx Unit := do
  Tx.revertIf (dst = 0) (.invalidReceiver 0)
  let previousOwner ← _update dst tokenId sender
  Tx.revertIf (previousOwner ≠ src) (.incorrectOwner src tokenId previousOwner)

/-! ## When the functions return -/

section Returns

variable {t t' : ERC721} {owner spender sender operator src dst auth : Address} {tokenId : Nat}
  {approved emitEvent : Bool} {u : Unit}

theorem _requireOwned_ok {a : Address} :
    t._requireOwned tokenId = .ok a ↔ t.owners tokenId ≠ 0 ∧ t.owners tokenId = a := by
  simp only [_requireOwned, Result.bind_ok, Result.revertIf_ok, Result.pure_ok, exists_const]

theorem _isAuthorized_iff :
    t._isAuthorized owner spender tokenId = true ↔
      spender ≠ 0 ∧ (owner = spender ∨ t.operatorApprovals owner spender = true ∨
        t.tokenApprovals tokenId = spender) := by
  simp only [_isAuthorized, Bool.and_eq_true, Bool.or_eq_true, decide_eq_true_eq, or_assoc]

theorem _checkAuthorized_ok :
    t._checkAuthorized owner spender tokenId = .ok u ↔
      t._isAuthorized owner spender tokenId = true := by
  unfold _checkAuthorized
  split
  · next h => simp [h]
  · next h =>
    simp only [h]
    split <;> simp

/-- An approval is written for a token that exists, or cleared. -/
theorem _approve_ok (h : _approve dst tokenId auth emitEvent t = .ok (u, t')) :
    (emitEvent = true ∨ auth ≠ 0 → t.owners tokenId ≠ 0) ∧
      t' = { t with tokenApprovals := update t.tokenApprovals tokenId dst } := by
  simp only [_approve, Tx.bind_ok, Tx.view_ok, Tx.modify_ok] at h
  obtain ⟨_, _, ⟨hcheck, rfl⟩, rfl⟩ := h
  refine ⟨fun hread => ?_, rfl⟩
  rw [if_pos hread] at hcheck
  simp only [Result.bind_ok, _requireOwned_ok] at hcheck
  obtain ⟨_, ⟨hne, -⟩, -⟩ := hcheck
  exact hne

theorem setApprovalForAll_ok (h : setApprovalForAll sender operator approved t = .ok (u, t')) :
    t' = { t with
      operatorApprovals := update t.operatorApprovals sender
        (update (t.operatorApprovals sender) operator approved) } := by
  simp only [setApprovalForAll, Tx.bind_ok, Tx.revertIf_ok, Tx.modify_ok] at h
  obtain ⟨_, _, ⟨-, rfl⟩, rfl⟩ := h
  rfl

theorem leave_ok (h : leave src tokenId t = .ok (u, t')) :
    t'.owners = t.owners ∧ t'.operatorApprovals = t.operatorApprovals ∧
      t'.tokenApprovals = if src = 0 then t.tokenApprovals else update t.tokenApprovals tokenId 0 := by
  unfold leave at h
  split at h
  · next hne =>
    simp only [Tx.bind_ok, Tx.modify_ok] at h
    obtain ⟨_, _, happrove, rfl⟩ := h
    obtain ⟨-, rfl⟩ := _approve_ok happrove
    simp [hne]
  · next h0 =>
    simp only [Tx.pure_ok] at h
    obtain ⟨-, rfl⟩ := h
    simp [not_not.mp h0]

theorem arrive_ok (h : arrive dst t = .ok (u, t')) :
    t'.owners = t.owners ∧ t'.operatorApprovals = t.operatorApprovals ∧
      t'.tokenApprovals = t.tokenApprovals := by
  unfold arrive at h
  split at h
  · simp only [Tx.modify_ok] at h
    subst h
    exact ⟨rfl, rfl, rfl⟩
  · simp only [Tx.pure_ok] at h
    obtain ⟨-, rfl⟩ := h
    exact ⟨rfl, rfl, rfl⟩

/-- `_update` answers the previous owner and writes the new one; it clears the
approval of a token that had an owner. -/
theorem _update_ok {previous : Address} (h : _update dst tokenId auth t = .ok (previous, t')) :
    previous = t.owners tokenId ∧
      (auth ≠ 0 → t._isAuthorized (t.owners tokenId) auth tokenId = true) ∧
      t'.owners = update t.owners tokenId dst ∧ t'.operatorApprovals = t.operatorApprovals ∧
      t'.tokenApprovals = if t.owners tokenId = 0 then t.tokenApprovals
        else update t.tokenApprovals tokenId 0 := by
  simp only [_update, Tx.bind_ok, Tx.get_ok, Tx.view_ok, Tx.modify_ok, Tx.pure_ok] at h
  obtain ⟨_, _, ⟨rfl, rfl⟩, _, _, ⟨hcheck, rfl⟩, _, t₁, hleave, _, t₂, harrive, _, _, rfl, rfl, rfl⟩ := h
  obtain ⟨howners₁, hoperators₁, happrovals₁⟩ := leave_ok hleave
  obtain ⟨howners₂, hoperators₂, happrovals₂⟩ := arrive_ok harrive
  refine ⟨rfl, fun hne => ?_, ?_, hoperators₂.trans hoperators₁, happrovals₂.trans happrovals₁⟩
  · rw [if_pos hne] at hcheck
    exact _checkAuthorized_ok.mp hcheck
  · simp only [howners₂, howners₁]

theorem _mint_ok (h : _mint dst tokenId t = .ok (u, t')) :
    dst ≠ 0 ∧ t.owners tokenId = 0 ∧ t'.owners = update t.owners tokenId dst ∧
      t'.operatorApprovals = t.operatorApprovals ∧ t'.tokenApprovals = t.tokenApprovals := by
  simp only [_mint, Tx.bind_ok, Tx.revertIf_ok] at h
  obtain ⟨_, _, ⟨hdst, rfl⟩, previous, _, hupdate, hnone, rfl⟩ := h
  obtain ⟨rfl, -, howners, hoperators, happrovals⟩ := _update_ok hupdate
  rw [not_not] at hnone
  rw [if_pos hnone] at happrovals
  exact ⟨hdst, hnone, howners, hoperators, happrovals⟩

theorem transferFrom_ok (h : transferFrom sender src dst tokenId t = .ok (u, t')) :
    dst ≠ 0 ∧ (sender ≠ 0 → t._isAuthorized (t.owners tokenId) sender tokenId = true) ∧
      t'.owners = update t.owners tokenId dst ∧ t'.operatorApprovals = t.operatorApprovals ∧
      t'.tokenApprovals = if t.owners tokenId = 0 then t.tokenApprovals
        else update t.tokenApprovals tokenId 0 := by
  simp only [transferFrom, Tx.bind_ok, Tx.revertIf_ok] at h
  obtain ⟨_, _, ⟨hdst, rfl⟩, previous, _, hupdate, -, rfl⟩ := h
  obtain ⟨-, hauth, hwrites⟩ := _update_ok hupdate
  exact ⟨hdst, hauth, hwrites⟩

end Returns

/-! ## Tokens and approvals -/

/-- Nothing is approved for a token that does not exist, and the zero address has
no operators. -/
structure Sane (t : ERC721) : Prop where
  no_approval : ∀ id, t.owners id = 0 → t.tokenApprovals id = 0
  no_operator : ∀ a, t.operatorApprovals 0 a = false

/-- The functions of `ERC721` that keep control. -/
inductive Op
  | approve (dst : Address) (tokenId : Nat)
  | setApprovalForAll (operator : Address) (approved : Bool)
  | transferFrom (src dst : Address) (tokenId : Nat)

def Op.exec (sender : Address) : Op → ERC721Tx Unit
  | approve dst id => ERC721.approve sender dst id
  | setApprovalForAll operator approved => ERC721.setApprovalForAll sender operator approved
  | transferFrom src dst id => ERC721.transferFrom sender src dst id

section Tokens

variable {t t' : ERC721} {sender dst : Address} {tokenId : Nat} {u : Unit}

theorem sane_empty : empty.Sane := ⟨fun _ _ => rfl, fun _ => rfl⟩

/-- A token that does not exist is nobody's to move. -/
theorem Sane.exists_of_authorized (ht : t.Sane) (hsender : sender ≠ 0)
    (h : t._isAuthorized (t.owners tokenId) sender tokenId = true) : t.owners tokenId ≠ 0 := by
  intro h0
  rw [h0, _isAuthorized_iff, ht.no_approval tokenId h0, ht.no_operator] at h
  rcases h.2 with heq | hoperator | heq
  · exact hsender heq.symm
  · cases hoperator
  · exact hsender heq.symm

theorem sane_mint (ht : t.Sane) (h : _mint dst tokenId t = .ok (u, t')) : t'.Sane := by
  obtain ⟨hdst, -, howners, hoperators, happrovals⟩ := _mint_ok h
  refine ⟨fun id hid => ?_, fun a => by rw [hoperators]; exact ht.no_operator a⟩
  rw [howners] at hid
  rw [happrovals]
  rcases eq_or_ne id tokenId with rfl | hne
  · rw [update_self] at hid
    exact absurd hid hdst
  · rw [update_of_ne hne] at hid
    exact ht.no_approval id hid

/-- No function creates or destroys a token. -/
theorem exec_tokens {op : Op} (ht : t.Sane) (hsender : sender ≠ 0)
    (h : op.exec sender t = .ok (u, t')) :
    t'.Sane ∧ ∀ id, t'.owners id = 0 ↔ t.owners id = 0 := by
  cases op with
  | approve dst id =>
    obtain ⟨howned, rfl⟩ := _approve_ok h
    refine ⟨⟨fun id' hid' => ?_, ht.no_operator⟩, fun _ => Iff.rfl⟩
    rcases eq_or_ne id' id with rfl | hne
    · exact absurd hid' (howned (.inl rfl))
    · show update t.tokenApprovals id dst id' = 0
      rw [update_of_ne hne]
      exact ht.no_approval id' hid'
  | setApprovalForAll operator approved =>
    obtain rfl := setApprovalForAll_ok h
    refine ⟨⟨ht.no_approval, fun a => ?_⟩, fun _ => Iff.rfl⟩
    show update t.operatorApprovals sender _ 0 a = false
    rw [update_of_ne (Ne.symm hsender)]
    exact ht.no_operator a
  | transferFrom src dst id =>
    obtain ⟨hdst, hauth, howners, hoperators, happrovals⟩ := transferFrom_ok h
    have howned := ht.exists_of_authorized hsender (hauth hsender)
    rw [if_neg howned] at happrovals
    have htokens : ∀ id', t'.owners id' = 0 ↔ t.owners id' = 0 := by
      intro id'
      rw [howners]
      rcases eq_or_ne id' id with rfl | hne
      · simp [hdst, howned]
      · rw [update_of_ne hne]
    refine ⟨⟨fun id' hid' => ?_, fun a => by rw [hoperators]; exact ht.no_operator a⟩, htokens⟩
    rw [happrovals]
    rcases eq_or_ne id' id with rfl | hne
    · exact update_self ..
    · rw [update_of_ne hne]
      exact ht.no_approval id' ((htokens id').mp hid')

end Tokens

end ERC721

end AdvFoundry
