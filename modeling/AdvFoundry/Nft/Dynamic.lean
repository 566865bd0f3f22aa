import AdvFoundry.Nft.Token

/-!
# DynamicNFT

`ipfs_and_nft/src/DynamicNFT.sol`.

`upgradeSword` calls `_checkAuthorized(msg.sender, owner, id)`, where `ERC721` has
the owner first and the spender second: it asks whether the *owner* may act for
the *caller*. `upgrade_law_iff` says when that makes no difference, and
`outsider_upgrades` is a run in which it does.

`mintNFT` writes the level of the new token and counts it after it has called
the receiver. `levels_kept`: as long as no token is upgraded while it is being
minted, no level is ever lost. `minted_upgrade_lost`: else one is.
-/

namespace AdvFoundry.Nft

open Function

inductive Sword
  | SIMPLE_SWORD
  | WIND_SWORD
  | GOD_SWORD
  deriving DecidableEq

/-- `uint8(sword)`. -/
def Sword.level : Sword → Nat
  | SIMPLE_SWORD => 0
  | WIND_SWORD => 1
  | GOD_SWORD => 2

/-- Storage of `DynamicNFT` beyond `ERC721`: `s_tokenNumber` and
`s_TokenIdToSword`. The images are read by `tokenURI` only. -/
structure DynamicNFT where
  tokenNumber : Nat
  tokenIdToSword : Nat → Sword

namespace DynamicNFT

/-- `DynamicNFT`'s constructor. -/
def constructor : World DynamicNFT := ⟨ERC721.empty, ⟨0, fun _ => .SIMPLE_SWORD⟩⟩

/-- `s_TokenIdToSword[id] = sword`. -/
def setSword (id : Nat) (sword : Sword) : NftTx DynamicNFT Unit :=
  modifyOwn fun s => { s with tokenIdToSword := update s.tokenIdToSword id sword }

/-- `s_tokenNumber++`, checked. -/
def countToken : NftTx DynamicNFT Unit :=
  Tx.tryModify fun w => do
    let next ← addU w.own.tokenNumber 1
    pure { w with own := { w.own with tokenNumber := next } }

/-- `mintNFT`: `s_tokenNumber` is read again when the receiver has answered. -/
def mintNFT (code : Address → Bool) (sender : Address) : NftProc DynamicNFT Unit := do
  let w ← .tx Tx.get
  _safeMint code sender sender w.own.tokenNumber
  let w ← .tx Tx.get
  .tx (setSword w.own.tokenNumber .SIMPLE_SWORD)
  .tx countToken

def upgradeSword (sender : Address) (tokenNumber : Nat) : NftTx DynamicNFT Unit := do
  let owner ← super (Tx.view fun t => t.ownerOf tokenNumber)
  super (Tx.view fun t => t._checkAuthorized sender owner tokenNumber)
  let w ← Tx.get
  if w.own.tokenIdToSword tokenNumber = .SIMPLE_SWORD then
    setSword tokenNumber .WIND_SWORD
  else if w.own.tokenIdToSword tokenNumber = .WIND_SWORD then
    setSword tokenNumber .GOD_SWORD
  else
    Tx.revertIf True (.reason "Already at max level !")

/-! ## The system -/

inductive Call
  | mintNFT
  | upgradeSword (tokenNumber : Nat)
  | inherited (op : Inherited)

/-- Who sends which call, and which accounts have code then. -/
structure Msg where
  sender : Address
  sender_ne : sender ≠ 0
  code : Address → Bool
  call : Call

def Msg.exec (m : Msg) : NftProc DynamicNFT Unit :=
  match m.call with
  | .mintNFT => DynamicNFT.mintNFT m.code m.sender
  | .upgradeSword id => .tx (DynamicNFT.upgradeSword m.sender id)
  | .inherited op => op.exec m.code m.sender

abbrev DynamicMachine := Machine NftError (World DynamicNFT) Received Nat

def Step : DynamicMachine → Event Msg Nat → DynamicMachine → Prop := Machine.Step Msg.exec

/-! ## 1. Who may upgrade -/

/-- The holder's side of a token: its owner, an operator the owner approved for
all, and the address approved for the token. -/
def HolderSide (t : ERC721) (c : Address) (id : Nat) : Prop :=
  c = t.owners id ∨ t.operatorApprovals (t.owners id) c = true ∨ t.tokenApprovals id = c

/-- `upgradeSword(id)` by `c` goes through exactly for the holder's side of a token
that exists and is below the highest level, and then raises its level by one and
changes nothing else. -/
def UpgradeLaw (w : World DynamicNFT) (c : Address) (id : Nat) : Prop :=
  ((∃ w', upgradeSword c id w = .ok ((), w')) ↔
    w.erc721.owners id ≠ 0 ∧ (w.own.tokenIdToSword id).level < Sword.GOD_SWORD.level ∧
      HolderSide w.erc721 c id) ∧
  ∀ w', upgradeSword c id w = .ok ((), w') →
    (w'.own.tokenIdToSword id).level = (w.own.tokenIdToSword id).level + 1 ∧
    (∀ id', id' ≠ id → w'.own.tokenIdToSword id' = w.own.tokenIdToSword id') ∧
    w'.erc721 = w.erc721

namespace DynamicLemmas

variable {w w' : World DynamicNFT} {c : Address} {id : Nat} {u : Unit}

theorem setSword_ok {sword : Sword} :
    setSword id sword w = .ok (u, w') ↔
      w' = { w with own := { w.own with tokenIdToSword := update w.own.tokenIdToSword id sword } } := by
  simp [setSword, modifyOwn]

theorem next_level {sword sword' : Sword} :
    sword'.level = sword.level + 1 ↔
      sword = .SIMPLE_SWORD ∧ sword' = .WIND_SWORD ∨ sword = .WIND_SWORD ∧ sword' = .GOD_SWORD := by
  cases sword <;> cases sword' <;> decide

theorem raise_ok {sword : Sword} :
    (if sword = .SIMPLE_SWORD then setSword id .WIND_SWORD
      else if sword = .WIND_SWORD then setSword id .GOD_SWORD
      else Tx.revertIf True (.reason "Already at max level !")) w = .ok (u, w') ↔
      ∃ next : Sword, next.level = sword.level + 1 ∧
        w' = { w with own := { w.own with
          tokenIdToSword := update w.own.tokenIdToSword id next } } := by
  simp only [next_level]
  cases sword with
  | SIMPLE_SWORD => simp [setSword_ok]
  | WIND_SWORD => simp [setSword_ok]
  | GOD_SWORD => simp

/-- What `upgradeSword` checks is whether the owner may act for the caller. -/
theorem upgradeSword_ok :
    upgradeSword c id w = .ok (u, w') ↔
      w.erc721._isAuthorized c (w.erc721.owners id) id = true ∧
      ∃ next : Sword, next.level = (w.own.tokenIdToSword id).level + 1 ∧
        w' = { w with own := { w.own with
          tokenIdToSword := update w.own.tokenIdToSword id next } } := by
  rw [← raise_ok (u := u)]
  simp only [upgradeSword, Tx.bind_ok, super_ok, Tx.view_ok, Tx.get_ok, ERC721.ownerOf,
    ERC721._requireOwned_ok, ERC721._checkAuthorized_ok]
  constructor
  · rintro ⟨_, _, ⟨_, ⟨⟨-, rfl⟩, rfl⟩, rfl⟩, _, _, ⟨_, ⟨hauth, rfl⟩, rfl⟩, _, _, ⟨rfl, rfl⟩, hraise⟩
    exact ⟨hauth, hraise⟩
  · rintro ⟨hauth, hraise⟩
    -- the owner is the spender here, and the zero address spends nothing
    have howner : w.erc721.owners id ≠ 0 := (ERC721._isAuthorized_iff.mp hauth).1
    exact ⟨_, w, ⟨_, ⟨⟨howner, rfl⟩, rfl⟩, rfl⟩, (), w, ⟨_, ⟨hauth, rfl⟩, rfl⟩, w, w, ⟨rfl, rfl⟩,
      hraise⟩

theorem next_exists {sword : Sword} :
    (∃ next : Sword, next.level = sword.level + 1) ↔ sword.level < Sword.GOD_SWORD.level := by
  simp only [next_level]
  cases sword <;> simp [Sword.level]

/-- When `upgradeSword` goes through. -/
theorem upgrades_iff :
    (∃ w', upgradeSword c id w = .ok ((), w')) ↔
      w.erc721.owners id ≠ 0 ∧ (w.own.tokenIdToSword id).level < Sword.GOD_SWORD.level ∧
        (c = w.erc721.owners id ∨ w.erc721.operatorApprovals c (w.erc721.owners id) = true ∨
          w.erc721.tokenApprovals id = w.erc721.owners id) := by
  simp only [upgradeSword_ok, ERC721._isAuthorized_iff, ← next_exists]
  constructor
  · rintro ⟨w', ⟨howner, hside⟩, next, hnext, -⟩
    exact ⟨howner, ⟨next, hnext⟩, hside⟩
  · rintro ⟨howner, ⟨next, hnext⟩, hside⟩
    exact ⟨_, ⟨howner, hside⟩, next, hnext, rfl⟩

/-- One level up, for this token only. -/
theorem upgrade_effect (h : upgradeSword c id w = .ok (u, w')) :
    (w'.own.tokenIdToSword id).level = (w.own.tokenIdToSword id).level + 1 ∧
    (∀ id', id' ≠ id → w'.own.tokenIdToSword id' = w.own.tokenIdToSword id') ∧
    w'.erc721 = w.erc721 := by
  obtain ⟨-, next, hnext, rfl⟩ := upgradeSword_ok.mp h
  refine ⟨?_, fun id' hne => update_of_ne hne .., rfl⟩
  show (update w.own.tokenIdToSword id next id).level = _
  rw [update_self]
  exact hnext

end DynamicLemmas

open DynamicLemmas

/-- The law holds of a token that cannot be upgraded and of a call by the owner;
of anyone else only when asking about the owner and asking about the caller come
to the same. -/
theorem upgrade_law_iff (w : World DynamicNFT) (c : Address) (id : Nat) :
    UpgradeLaw w c id ↔
      w.erc721.owners id = 0 ∨ w.own.tokenIdToSword id = .GOD_SWORD ∨ c = w.erc721.owners id ∨
        ((w.erc721.operatorApprovals c (w.erc721.owners id) = true ∨
            w.erc721.tokenApprovals id = w.erc721.owners id) ↔
          (w.erc721.operatorApprovals (w.erc721.owners id) c = true ∨
            w.erc721.tokenApprovals id = c)) := by
  have hlevel : (w.own.tokenIdToSword id).level < Sword.GOD_SWORD.level ↔
      w.own.tokenIdToSword id ≠ .GOD_SWORD := by
    cases w.own.tokenIdToSword id <;> decide
  unfold UpgradeLaw HolderSide
  rw [and_iff_left fun w' hw' => upgrade_effect hw', upgrades_iff, hlevel]
  by_cases howner : w.erc721.owners id = 0
  · simp [howner]
  by_cases hgod : w.own.tokenIdToSword id = .GOD_SWORD
  · simp [hgod]
  by_cases hc : c = w.erc721.owners id
  · simp [hc]
  · simp [howner, hgod, hc]

/-- `25` mints, and `26` approves `25` as its operator. -/
def outsiderEvents : List (Event Msg Nat) :=
  [.call ⟨25, by decide, fun _ => false, .mintNFT⟩,
   .call ⟨26, by decide, fun _ => false, .inherited (.call (.setApprovalForAll 25 true))⟩]

/-- Then `26`, whom `25` approved for nothing, upgrades the token of `25`. -/
theorem outsider_upgrades :
    ¬ ∀ (m : DynamicMachine) (events : List (Event Msg Nat)),
      Run Step ⟨constructor, []⟩ events m → ∀ (c : Address) (id : Nat), c ≠ 0 →
        UpgradeLaw m.world c id := by
  intro hall
  obtain ⟨m, hrun, hexists, hlow, happroved, hoperator, hnone⟩ : ∃ m : DynamicMachine,
      Run Step ⟨constructor, []⟩ outsiderEvents m ∧ m.world.erc721.owners 0 = 25 ∧
        m.world.own.tokenIdToSword 0 = .SIMPLE_SWORD ∧ m.world.erc721.operatorApprovals 26 25 = true ∧
        m.world.erc721.operatorApprovals 25 26 = false ∧ m.world.erc721.tokenApprovals 0 = 0 :=
    ⟨_, Run.of_foldlM (fun _ _ _ h => h) (Option.some_get (by decide +kernel)).symm,
      by decide +kernel, by decide +kernel, by decide +kernel, by decide +kernel, by decide +kernel⟩
  have hupgrades : ∃ w', upgradeSword 26 0 m.world = .ok ((), w') := by
    rw [upgrades_iff, hexists, hlow]
    exact ⟨by decide, by decide, .inr (.inl happroved)⟩
  obtain ⟨-, -, hside⟩ := (hall m outsiderEvents hrun 26 0 (by decide)).1.mp hupgrades
  rw [HolderSide, hexists, hoperator, hnone] at hside
  revert hside
  decide

/-! ## 2. No level is lost -/

/-- The highest level each id had when a call handed over control or returned. -/
def reached : Recorder Msg (World DynamicNFT) Received (Nat → Nat) where
  onQuery _ _ _ handed h id := max (h id) (handed.own.tokenIdToSword id).level
  onReturn _ _ final h id := max (h id) (final.own.tokenIdToSword id).level

/-- No upgrade of the token that is being minted: the one with the id
`s_tokenNumber`, which `mintNFT` has given out and not counted yet. The check is
the one `upgradeSword` makes. -/
def Calm (w : World DynamicNFT) : Event Msg Nat → Prop
  | .call m =>
    match m.call with
    | .upgradeSword id =>
      id = w.own.tokenNumber → w.erc721._isAuthorized m.sender (w.erc721.owners id) id = false
    | .mintNFT => True
    | .inherited _ => True
  | .answer _ => True
  | .fail => True

instance (w : World DynamicNFT) : DecidablePred (Calm w)
  | .call ⟨_, _, _, .upgradeSword _⟩ => inferInstanceAs (Decidable (_ → _))
  | .call ⟨_, _, _, .mintNFT⟩ => inferInstanceAs (Decidable True)
  | .call ⟨_, _, _, .inherited _⟩ => inferInstanceAs (Decidable True)
  | .answer _ => inferInstanceAs (Decidable True)
  | .fail => inferInstanceAs (Decidable True)

def CalmStep (m : DynamicMachine) (ev : Event Msg Nat) (m' : DynamicMachine) : Prop :=
  Calm m.world ev ∧ Step m ev m'

/-- The ids that are not counted yet have the lowest level, so that `mintNFT`
changes no level when it writes it. -/
structure Kept (p : World DynamicNFT × (Nat → Nat)) : Prop where
  sane : p.1.erc721.Sane
  above : ∀ id, p.1.own.tokenNumber < id → p.1.erc721.owners id = 0
  simple : ∀ id, p.1.own.tokenNumber ≤ id → p.1.own.tokenIdToSword id = .SIMPLE_SWORD
  highest : ∀ id, p.2 id = (p.1.own.tokenIdToSword id).level

namespace DynamicLemmas

variable {w w' : World DynamicNFT} {h : Nat → Nat} {code : Address → Bool} {sender c : Address}

/-- Where the record is up to date, no level is new to it. -/
theorem reached_same (hp : Kept (w, h)) :
    (fun id => max (h id) (w.own.tokenIdToSword id).level) = h := by
  funext id
  rw [← hp.highest id]
  exact max_self _

theorem mintNFT_eq : mintNFT code sender = (do
    let w ← .tx Tx.get
    .tx (super (ERC721._mint sender w.own.tokenNumber))
    checkOnERC721Received code sender 0 sender w.own.tokenNumber
    let w ← .tx Tx.get
    .tx (setSword w.own.tokenNumber .SIMPLE_SWORD)
    .tx countToken) := by
  simp only [mintNFT, _safeMint, Proc.bind_assoc]

theorem kept_mint {t : ERC721} (hp : Kept (w, h))
    (ht : ERC721._mint sender w.own.tokenNumber w.erc721 = .ok ((), t)) :
    Kept ({ w with erc721 := t }, h) := by
  obtain ⟨-, -, howners, -, -⟩ := ERC721._mint_ok ht
  refine ⟨ERC721.sane_mint hp.sane ht, fun id hid => ?_, hp.simple, hp.highest⟩
  show t.owners id = 0
  rw [howners, update_of_ne (Nat.ne_of_gt hid)]
  exact hp.above id hid

/-- The write of `mintNFT` finds the level it writes. -/
theorem setSword_same (hp : Kept (w, h))
    (hset : setSword w.own.tokenNumber .SIMPLE_SWORD w = .ok ((), w')) : w' = w := by
  obtain rfl := setSword_ok.mp hset
  rw [← hp.simple _ le_rfl, update_eq_self]

theorem kept_count (hp : Kept (w, h)) (hcount : countToken w = .ok ((), w')) : Kept (w', h) := by
  simp only [countToken, Tx.tryModify_ok, Result.bind_ok, addU_ok, Result.pure_ok] at hcount
  obtain ⟨_, ⟨-, rfl⟩, rfl⟩ := hcount
  exact ⟨hp.sane, fun id hid => hp.above id (Nat.lt_of_succ_lt hid),
    fun id hid => hp.simple id (Nat.le_of_succ_le hid), hp.highest⟩

/-- A token that exists and is counted goes one level up, and the record with it. -/
theorem kept_upgrade {id : Nat} (hp : Kept (w, h))
    (hcalm : id = w.own.tokenNumber → w.erc721._isAuthorized c (w.erc721.owners id) id = false)
    (hup : upgradeSword c id w = .ok ((), w')) :
    Kept (w', fun id => max (h id) (w'.own.tokenIdToSword id).level) := by
  obtain ⟨hauth, next, hnext, rfl⟩ := upgradeSword_ok.mp hup
  have hcounted : id < w.own.tokenNumber := by
    rcases Nat.lt_trichotomy id w.own.tokenNumber with hlt | rfl | hgt
    · exact hlt
    · rw [hcalm rfl] at hauth
      cases hauth
    · exact absurd (hp.above id hgt) (ERC721._isAuthorized_iff.mp hauth).1
  refine ⟨hp.sane, hp.above, fun id' hid' => ?_, fun id' => ?_⟩
  · show update w.own.tokenIdToSword id next id' = .SIMPLE_SWORD
    rw [update_of_ne (Nat.ne_of_gt (Nat.lt_of_lt_of_le hcounted hid'))]
    exact hp.simple id' hid'
  · refine max_eq_right ?_
    have hhigh : h id' = (w.own.tokenIdToSword id').level := hp.highest id'
    rw [hhigh]
    show _ ≤ (update w.own.tokenIdToSword id next id').level
    rcases eq_or_ne id' id with rfl | hne
    · rw [update_self, hnext]
      exact Nat.le_succ _
    · rw [update_of_ne hne]

theorem relies_mintNFT {m : Msg} (hp : Kept (w, h)) :
    ((mintNFT m.code m.sender w).recorded reached m w h).Relies Kept (fun _ _ => True)
      fun _ p => Kept p ∧ True := by
  rw [mintNFT_eq]
  refine Outcome.relies_recorded_tx fun _ w₁ hw₁ => ?_
  obtain ⟨rfl, rfl⟩ := Tx.get_ok.mp hw₁
  refine Outcome.relies_recorded_tx fun _ w₁ hw₁ => ?_
  obtain ⟨t, ht, rfl⟩ := super_ok.mp hw₁
  refine relies_check _ (fun _ _ _ hp => reached_same hp) (fun _ => trivial) (kept_mint hp ht)
    fun w₂ h₂ hp₂ _ => ?_
  refine Outcome.relies_recorded_tx fun _ w₃ hw₃ => ?_
  obtain ⟨rfl, rfl⟩ := Tx.get_ok.mp hw₃
  refine Outcome.relies_recorded_tx fun _ w₃ hw₃ => ?_
  obtain rfl := setSword_same hp₂ hw₃
  refine Outcome.relies_recorded_return fun w₄ hw₄ => ⟨?_, trivial⟩
  have hp₄ := kept_count hp₂ hw₄
  show Kept (w₄, fun id => max (h₂ id) (w₄.own.tokenIdToSword id).level)
  rw [reached_same hp₄]
  exact hp₄

/-- The inherited functions leave the levels, the counter and the record alone. -/
theorem kept_moved {t : ERC721} (hp : Kept (w, h)) (hsane : t.Sane)
    (htokens : ∀ id, t.owners id = 0 ↔ w.erc721.owners id = 0) : Kept ({ w with erc721 := t }, h) :=
  ⟨hsane, fun id hid => (htokens id).mpr (hp.above id hid), hp.simple, hp.highest⟩

theorem relies_exec (m : Msg) (p : World DynamicNFT × (Nat → Nat)) (hp : Kept p)
    (hcalm : Calm p.1 (.call m)) :
    (Machine.recordedExec Msg.exec reached m p).Relies Kept (fun _ _ => True)
      fun _ p' => Kept p' ∧ True := by
  obtain ⟨w, h⟩ := p
  obtain ⟨sender, hsender, code, call⟩ := m
  cases call with
  | mintNFT => exact relies_mintNFT (m := ⟨sender, hsender, code, .mintNFT⟩) hp
  | upgradeSword id =>
    refine Outcome.relies_recorded_return fun w' hw' => ⟨?_, trivial⟩
    exact kept_upgrade hp hcalm hw'
  | inherited op =>
    exact relies_inherited (fun _ _ _ hp => reached_same hp) (fun _ _ hp => reached_same hp) (fun _ => trivial)
      (fun _ _ _ _ _ => trivial) hsender hp.sane
      fun t hsane htokens => ⟨kept_moved hp hsane htokens, trivial⟩

theorem kept_constructor : Kept (constructor, fun _ => 0) :=
  ⟨ERC721.sane_empty, fun _ _ => rfl, fun _ _ => rfl, fun _ => rfl⟩

end DynamicLemmas

/-- As long as no step upgrades the token that is being minted, in every state of
the run, inside calls too, every token has the highest level it ever had. -/
theorem levels_kept {m : DynamicMachine} {events : List (Event Msg Nat)}
    (hrun : Run CalmStep ⟨constructor, []⟩ events m) :
    ∃ h stack, Run (Machine.Step (Machine.recordedExec Msg.exec reached))
        ⟨(constructor, fun _ => 0), []⟩ events ⟨(m.world, h), stack⟩ ∧
      ∀ id, h id ≤ (m.world.own.tokenIdToSword id).level := by
  have hrecords : Machine.Records reached (⟨constructor, []⟩ : DynamicMachine)
      ⟨(constructor, fun _ => 0), []⟩ := ⟨rfl, .nil⟩
  have hstart : Machine.Steady Kept (fun _ _ => True) (constructor, fun _ => 0)
      (⟨(constructor, fun _ => 0), []⟩ : Machine NftError _ Received Nat) :=
    ⟨kept_constructor, trivial⟩
  obtain ⟨⟨⟨world, h⟩, stack⟩, hrecorded, ⟨hworld, -⟩, hsteady⟩ :=
    Machine.recorded_run_of (fun _ _ _ hstep => hstep.2)
      (fun m m' ev n n' hstep hm hstep' hsteady =>
        Machine.steady_next (fun _ => trivial) (fun _ _ _ _ _ => trivial)
          (fun msg hev => relies_exec msg _ hsteady.world (hm.world ▸ hev ▸ hstep.1))
          hsteady hstep')
      hrun hrecords hstart
  have hworld : world = m.world := hworld
  subst hworld
  exact ⟨h, stack, hrecorded, fun id => le_of_eq (hsteady.world.highest id)⟩

/-- The contract `27` mints and takes the token, and upgrades it afterwards. -/
def calmEvents : List (Event Msg Nat) :=
  [.call ⟨27, by decide, fun a => a = 27, .mintNFT⟩,
   .answer onERC721Received,
   .call ⟨27, by decide, fun a => a = 27, .upgradeSword 0⟩]

/-- The level is there at the end. -/
theorem levels_kept_upgraded :
    ∃ (m : DynamicMachine) (h : Nat → Nat) (stack : List _),
      Run CalmStep ⟨constructor, []⟩ calmEvents m ∧ m.world.own.tokenIdToSword 0 = .WIND_SWORD ∧
      Run (Machine.Step (Machine.recordedExec Msg.exec reached)) ⟨(constructor, fun _ => 0), []⟩
        calmEvents ⟨(m.world, h), stack⟩ ∧
      ∀ id, h id ≤ (m.world.own.tokenIdToSword id).level := by
  have hnext : ∀ (m : DynamicMachine) (ev : Event Msg Nat) (m' : DynamicMachine),
      (if Calm m.world ev then m.next Msg.exec ev else none) = some m' → CalmStep m ev m' := by
    intro m ev m' h
    split at h
    · next hcalm => exact ⟨hcalm, h⟩
    · cases h
  obtain ⟨m, hrun, hlevel⟩ : ∃ m : DynamicMachine, Run CalmStep ⟨constructor, []⟩ calmEvents m ∧
      m.world.own.tokenIdToSword 0 = .WIND_SWORD :=
    ⟨_, Run.of_foldlM hnext (Option.some_get (by decide +kernel)).symm, by decide +kernel⟩
  obtain ⟨h, stack, hrecorded, hkept⟩ := levels_kept hrun
  exact ⟨m, h, stack, hrun, hlevel, hrecorded, hkept⟩

/-- The contract `27` upgrades the token from inside `onERC721Received`. -/
def hastyEvents : List (Event Msg Nat) :=
  [.call ⟨27, by decide, fun a => a = 27, .mintNFT⟩,
   .call ⟨27, by decide, fun a => a = 27, .upgradeSword 0⟩,
   .answer onERC721Received]

/-- The level it gained is gone when its `mintNFT` returns. -/
theorem minted_upgrade_lost :
    ¬ ∀ (m : DynamicMachine) (events : List (Event Msg Nat)),
      Run Step ⟨constructor, []⟩ events m →
        ∃ h stack, Run (Machine.Step (Machine.recordedExec Msg.exec reached))
            ⟨(constructor, fun _ => 0), []⟩ events ⟨(m.world, h), stack⟩ ∧
          ∀ id, m.world.erc721.owners id ≠ 0 → h id ≤ (m.world.own.tokenIdToSword id).level := by
  intro hall
  obtain ⟨m, hrun, howner⟩ : ∃ m : DynamicMachine, Run Step ⟨constructor, []⟩ hastyEvents m ∧
      m.world.erc721.owners 0 ≠ 0 :=
    ⟨_, Run.of_foldlM (fun _ _ _ h => h) (Option.some_get (by decide +kernel)).symm,
      by decide +kernel⟩
  obtain ⟨h, stack, hrecorded, hkept⟩ := hall m hastyEvents hrun
  have hlost : ∀ n, hastyEvents.foldlM (Machine.next (Machine.recordedExec Msg.exec reached))
      ⟨(constructor, fun _ => 0), []⟩ = some n →
        (n.world.1.own.tokenIdToSword 0).level < n.world.2 0 := by
    have hsome : (hastyEvents.foldlM (Machine.next (Machine.recordedExec Msg.exec reached))
      ⟨(constructor, fun _ => 0), []⟩).all (fun n =>
        (n.world.1.own.tokenIdToSword 0).level < n.world.2 0) = true := by decide +kernel
    intro n hn
    rw [hn] at hsome
    exact of_decide_eq_true hsome
  exact Nat.not_lt.mpr (hkept 0 howner) (hlost _ (Run.foldlM_eq (fun _ _ _ h => h) hrecorded))

end DynamicNFT

end AdvFoundry.Nft
