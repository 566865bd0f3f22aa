import AdvFoundry.Nft.Token

/-!
# BasicNFT

`ipfs_and_nft/src/BasicNFT.sol`. `mintNFT` writes the URI before it calls the
receiver and counts the token after, so while the receiver runs the newest token
exists and its id is still `s_tokenNumber`. A `mintNFT` from inside writes to the
same slot, finds the id taken, and takes its write back when it reverts.

`metadata_permanent`: after every completed outermost call the tokens are those
below `s_tokenNumber`, one for each `mintNFT` that returned, with the URI it was
given, and stay so.
-/

namespace AdvFoundry.Nft

open Function

/-- Storage of `BasicNFT` beyond `ERC721`: `s_tokenNumber` and
`s_TokenNumberToURI`. -/
structure BasicNFT where
  tokenNumber : Nat
  tokenNumberToURI : Nat → String

namespace BasicNFT

/-- `BasicNFT`'s constructor. -/
def constructor : World BasicNFT := ⟨ERC721.empty, ⟨0, fun _ => ""⟩⟩

/-- `s_tokenNumber++`, checked. -/
def countToken : NftTx BasicNFT Unit :=
  Tx.tryModify fun w => do
    let next ← addU w.own.tokenNumber 1
    pure { w with own := { w.own with tokenNumber := next } }

def mintNFT (code : Address → Bool) (sender : Address) (uri : String) : NftProc BasicNFT Unit := do
  .tx <| modifyOwn fun s =>
    { s with tokenNumberToURI := update s.tokenNumberToURI s.tokenNumber uri }
  let w ← .tx Tx.get
  _safeMint code sender sender w.own.tokenNumber
  .tx countToken

/-- `tokenURI`, which asks for no owner. -/
def tokenURI (w : World BasicNFT) (tokenNumber : Nat) : String := w.own.tokenNumberToURI tokenNumber

def getTokenToURI (w : World BasicNFT) (tokenNumber : Nat) : String :=
  w.own.tokenNumberToURI tokenNumber

def getCurrentTokenNumber (w : World BasicNFT) : Nat := w.own.tokenNumber

/-! ## The system -/

inductive Call
  | mintNFT (uri : String)
  | inherited (op : Inherited)

/-- Who sends which call, and which accounts have code then. -/
structure Msg where
  sender : Address
  sender_ne : sender ≠ 0
  code : Address → Bool
  call : Call

def Msg.exec (m : Msg) : NftProc BasicNFT Unit :=
  match m.call with
  | .mintNFT uri => BasicNFT.mintNFT m.code m.sender uri
  | .inherited op => op.exec m.code m.sender

abbrev BasicMachine := Machine NftError (World BasicNFT) Received Nat

def Step : BasicMachine → Event Msg Nat → BasicMachine → Prop := Machine.Step Msg.exec

/-- A `mintNFT` that returned: the id it found in `s_tokenNumber`, its sender and
its argument. -/
structure Mint where
  tokenId : Nat
  minter : Address
  uri : String

/-- The record of the mints that returned. -/
def mints : Recorder Msg (World BasicNFT) Received (List Mint) where
  onQuery _ _ _ _ h := h
  onReturn m start _ h :=
    match m.call with
    | .mintNFT uri => h ++ [⟨start.own.tokenNumber, m.sender, uri⟩]
    | .inherited _ => h

/-! ## The invariant and what a completed call does -/

/-- The token that is being minted exists already. -/
def Minting (w : World BasicNFT) : Prop := w.erc721.owners w.own.tokenNumber ≠ 0

/-- All ids below the counter exist, each from one recorded mint with its URI, and
no id above it does. -/
structure Dense (p : World BasicNFT × List Mint) : Prop where
  sane : p.1.erc721.Sane
  below : ∀ id, id < p.1.own.tokenNumber → p.1.erc721.owners id ≠ 0
  above : ∀ id, p.1.own.tokenNumber < id → p.1.erc721.owners id = 0
  ids : p.2.map Mint.tokenId = List.range p.1.own.tokenNumber
  uris : ∀ e ∈ p.2, p.1.own.tokenNumberToURI e.tokenId = e.uri

/-- Completed calls end inside a mint when they began inside it, with the slot of
that mint untouched, and only add to the record. -/
structure Settled (p p' : World BasicNFT × List Mint) : Prop where
  minting : Minting p'.1 ↔ Minting p.1
  slot : Minting p.1 → p'.1.own.tokenNumber = p.1.own.tokenNumber ∧
    p'.1.own.tokenNumberToURI p.1.own.tokenNumber = p.1.own.tokenNumberToURI p.1.own.tokenNumber
  grows : p.2 <+: p'.2

namespace BasicLemmas

variable {w w' : World BasicNFT} {h : List Mint} {code : Address → Bool} {sender : Address}
  {uri : String}

theorem settled_refl (p : World BasicNFT × List Mint) : Settled p p :=
  ⟨Iff.rfl, fun _ => ⟨rfl, rfl⟩, List.prefix_rfl⟩

theorem settled_trans (p p' p'' : World BasicNFT × List Mint) (h : Settled p p')
    (h' : Settled p' p'') : Settled p p'' := by
  refine ⟨h'.minting.trans h.minting, fun hminting => ?_, h.grows.trans h'.grows⟩
  obtain ⟨hnumber, huri⟩ := h.slot hminting
  obtain ⟨hnumber', huri'⟩ := h'.slot (h.minting.mpr hminting)
  rw [hnumber] at huri' hnumber'
  exact ⟨hnumber', huri'.trans huri⟩

/-- The parts of `mintNFT`, one after another. -/
theorem mintNFT_eq : mintNFT code sender uri = (do
    .tx <| modifyOwn fun s =>
      { s with tokenNumberToURI := update s.tokenNumberToURI s.tokenNumber uri }
    let w ← .tx Tx.get
    .tx (super (ERC721._mint sender w.own.tokenNumber))
    checkOnERC721Received code sender 0 sender w.own.tokenNumber
    .tx countToken) := by
  simp only [mintNFT, _safeMint, Proc.bind_assoc]

/-- What `mintNFT` hands over: the URI is written, the token is there, and the
counter is as it was. -/
structure Handed (w : World BasicNFT) (uri : String) (w' : World BasicNFT) : Prop where
  fresh : ¬ Minting w
  sane : w'.erc721.Sane
  number : w'.own.tokenNumber = w.own.tokenNumber
  uris : w'.own.tokenNumberToURI = update w.own.tokenNumberToURI w.own.tokenNumber uri
  exists_iff : ∀ id, w'.erc721.owners id ≠ 0 ↔
    id = w.own.tokenNumber ∨ w.erc721.owners id ≠ 0

theorem handed_mint {t : ERC721} (hsane : w.erc721.Sane)
    (ht : ERC721._mint sender w.own.tokenNumber w.erc721 = .ok ((), t)) :
    Handed w uri ⟨t, { w.own with
      tokenNumberToURI := update w.own.tokenNumberToURI w.own.tokenNumber uri }⟩ := by
  obtain ⟨hsender, hfree, howners, -, -⟩ := ERC721._mint_ok ht
  refine ⟨not_not.mpr hfree, ERC721.sane_mint hsane ht, rfl, rfl, fun id => ?_⟩
  show t.owners id ≠ 0 ↔ _
  rw [howners]
  rcases eq_or_ne id w.own.tokenNumber with rfl | hid
  · simp [hsender]
  · simp [hid]

theorem Handed.minting (hh : Handed w uri w') : Minting w' := by
  unfold Minting
  rw [hh.number, hh.exists_iff]
  exact .inl rfl

/-- The slot written is of an id that no recorded mint has. -/
theorem Handed.dense (hh : Handed w uri w') (hp : Dense (w, h)) : Dense (w', h) := by
  have hnumber := hh.number
  refine ⟨hh.sane, fun id hid => ?_, fun id hid => ?_, ?_, fun e he => ?_⟩
  · exact (hh.exists_iff id).mpr (.inr (hp.below id (hnumber ▸ hid)))
  · have hid' : w.own.tokenNumber < id := hnumber ▸ hid
    by_contra hne
    rcases (hh.exists_iff id).mp hne with heq | hold
    · exact absurd heq (Nat.ne_of_gt hid')
    · exact hold (hp.above id hid')
  · rw [hnumber]
    exact hp.ids
  · have hmem : e.tokenId ∈ List.range w.own.tokenNumber := hp.ids ▸ List.mem_map_of_mem he
    have hne : e.tokenId ≠ w.own.tokenNumber := Nat.ne_of_lt (List.mem_range.mp hmem)
    show w'.own.tokenNumberToURI e.tokenId = e.uri
    rw [hh.uris, update_of_ne hne]
    exact hp.uris e he

/-- Back from the receiver the slot is as it was handed over, so counting the
token completes the mint that wrote it. -/
theorem counted {w₁ w₂ w₃ : World BasicNFT} {h₂ : List Mint} (hh : Handed w uri w₁)
    (hp₂ : Dense (w₂, h₂)) (hsettled : Settled (w₁, h) (w₂, h₂))
    (hcount : countToken w₂ = .ok ((), w₃)) :
    Dense (w₃, h₂ ++ [⟨w.own.tokenNumber, sender, uri⟩]) ∧
      Settled (w, h) (w₃, h₂ ++ [⟨w.own.tokenNumber, sender, uri⟩]) := by
  simp only [countToken, Tx.tryModify_ok, Result.bind_ok, addU_ok, Result.pure_ok] at hcount
  obtain ⟨_, ⟨-, rfl⟩, rfl⟩ := hcount
  obtain ⟨hnumber, huri⟩ := hsettled.slot hh.minting
  have hminting : Minting w₂ := hsettled.minting.mpr hh.minting
  simp only at hnumber huri
  rw [hh.number] at hnumber huri
  have hslot : w₂.own.tokenNumberToURI w.own.tokenNumber = uri := by
    rw [huri, hh.uris, update_self]
  have hnew : ∀ id, w₂.own.tokenNumber < id → w₂.erc721.owners id = 0 := hp₂.above
  constructor
  · refine ⟨hp₂.sane, fun id hid => ?_, fun id hid => ?_, ?_, fun e he => ?_⟩
    · rcases Nat.lt_succ_iff_lt_or_eq.mp hid with hlt | rfl
      · exact hp₂.below id hlt
      · exact hminting
    · exact hnew id (Nat.lt_of_succ_lt hid)
    · have hids : h₂.map Mint.tokenId = List.range w₂.own.tokenNumber := hp₂.ids
      rw [List.map_append, hids, List.range_succ, hnumber]
      rfl
    · rcases List.mem_append.mp he with he | he
      · exact hp₂.uris e he
      · rw [List.mem_singleton.mp he]
        exact hslot
  · refine ⟨⟨fun hafter => ?_, fun hbefore => absurd hbefore hh.fresh⟩,
      fun hbefore => absurd hbefore hh.fresh, hsettled.grows.trans (List.prefix_append _ _)⟩
    exact absurd (hnew _ (Nat.lt_succ_self _)) hafter

theorem relies_mintNFT {m : Msg} (hm : m.call = .mintNFT uri) (hp : Dense (w, h)) :
    ((mintNFT m.code m.sender uri w).recorded mints m w h).Relies Dense Settled
      fun _ p => Dense p ∧ Settled (w, h) p := by
  rw [mintNFT_eq]
  refine Outcome.relies_recorded_tx fun _ w₁ hw₁ => ?_
  obtain rfl := modifyOwn_ok.mp hw₁
  refine Outcome.relies_recorded_tx fun _ w₁ hw₁ => ?_
  obtain ⟨rfl, rfl⟩ := Tx.get_ok.mp hw₁
  refine Outcome.relies_recorded_tx fun _ w₁ hw₁ => ?_
  obtain ⟨t, ht, rfl⟩ := super_ok.mp hw₁
  have hh : Handed w uri _ := handed_mint hp.sane ht
  refine relies_check _ (fun _ _ _ _ => rfl) settled_refl (hh.dense hp)
    fun w₂ h₂ hp₂ hsettled => ?_
  refine Outcome.relies_recorded_return fun w₃ hw₃ => ?_
  have hreturn : mints.onReturn m w w₃ h₂ = h₂ ++ [⟨w.own.tokenNumber, m.sender, uri⟩] := by
    simp only [mints, hm]
  rw [hreturn]
  exact counted hh hp₂ hsettled hw₃

/-- The inherited functions leave the ids, the URIs and the record alone. -/
theorem moved {t : ERC721} (hp : Dense (w, h)) (hsane : t.Sane)
    (htokens : ∀ id, t.owners id = 0 ↔ w.erc721.owners id = 0) :
    Dense ({ w with erc721 := t }, h) ∧ Settled (w, h) ({ w with erc721 := t }, h) := by
  refine ⟨⟨hsane, fun id hid => ?_, fun id hid => ?_, hp.ids, hp.uris⟩,
    ⟨not_congr (htokens _), fun _ => ⟨rfl, rfl⟩, List.prefix_rfl⟩⟩
  · exact (not_congr (htokens id)).mpr (hp.below id hid)
  · exact (htokens id).mpr (hp.above id hid)

theorem relies_exec (m : Msg) (p : World BasicNFT × List Mint) (hp : Dense p) :
    (Machine.recordedExec Msg.exec mints m p).Relies Dense Settled
      fun _ p' => Dense p' ∧ Settled p p' := by
  obtain ⟨w, h⟩ := p
  rcases m with ⟨sender, hsender, code, call⟩
  cases call with
  | mintNFT uri => exact relies_mintNFT (m := ⟨sender, hsender, code, .mintNFT uri⟩) rfl hp
  | inherited op =>
    exact relies_inherited (fun _ _ _ _ => rfl) (fun _ _ _ => rfl) settled_refl settled_trans hsender
      hp.sane fun t hsane htokens => moved hp hsane htokens

/-- An idle machine stays steady from any idle state with its record. -/
theorem steady_idle {p : World BasicNFT × List Mint} (hp : Dense p) :
    Machine.Steady Dense Settled p
      (⟨p, []⟩ : Machine NftError (World BasicNFT × List Mint) Received Nat) :=
  ⟨hp, settled_refl p⟩

end BasicLemmas

open BasicLemmas

/-- From an idle state with its record, every later idle state has one that
extends it. -/
theorem recorded_idle {w : World BasicNFT} {h : List Mint} {m : BasicMachine}
    {events : List (Event Msg Nat)} (hp : Dense (w, h)) (hrun : Run Step ⟨w, []⟩ events m)
    (hidle : m.stack = []) :
    ∃ h', Run (Machine.Step (Machine.recordedExec Msg.exec mints)) ⟨(w, h), []⟩ events
        ⟨(m.world, h'), []⟩ ∧
      Dense (m.world, h') ∧ Settled (w, h) (m.world, h') := by
  have hrecords : Machine.Records mints (⟨w, []⟩ : BasicMachine) ⟨(w, h), []⟩ := ⟨rfl, .nil⟩
  obtain ⟨⟨⟨world, h'⟩, stack⟩, hrecorded, hworld, hstack⟩ := Machine.recorded_run hrun hrecords
  have hworld : world = m.world := hworld
  subst hworld
  rw [hidle] at hstack
  cases hstack
  have hsteady := Machine.steady_run settled_refl settled_trans relies_exec hrecorded (steady_idle hp)
  exact ⟨h', hrecorded, hsteady.world, hsteady.chain⟩

theorem dense_constructor : Dense (constructor, []) := by
  refine ⟨ERC721.sane_empty, fun id hid => absurd hid (Nat.not_lt_zero id), fun _ _ => rfl, rfl,
    fun e he => ?_⟩
  cases he

/-- After every completed outermost call, whatever the receivers did inside: the
ids that exist are those below the counter, the `mintNFT` calls that returned
have these ids, one each and in this order, and `tokenURI` answers the string
each was given. The same holds of these ids after every later outermost call. -/
theorem metadata_permanent {m : BasicMachine} {events : List (Event Msg Nat)}
    (hrun : Run Step ⟨constructor, []⟩ events m) (hidle : m.stack = []) :
    ∃ h, Run (Machine.Step (Machine.recordedExec Msg.exec mints)) ⟨(constructor, []), []⟩ events
        ⟨(m.world, h), []⟩ ∧
      (∀ id, m.world.erc721.owners id ≠ 0 ↔ id < getCurrentTokenNumber m.world) ∧
      h.map Mint.tokenId = List.range (getCurrentTokenNumber m.world) ∧
      (∀ e ∈ h, tokenURI m.world e.tokenId = e.uri) ∧
      ∀ (later : List (Event Msg Nat)) (m' : BasicMachine), Run Step m later m' → m'.stack = [] →
        ∀ e ∈ h, m'.world.erc721.owners e.tokenId ≠ 0 ∧ tokenURI m'.world e.tokenId = e.uri := by
  obtain ⟨h, hrecorded, hp, hsettled⟩ := recorded_idle dense_constructor hrun hidle
  have hnone : ¬ Minting m.world := fun hminting => hsettled.minting.mp hminting rfl
  refine ⟨h, hrecorded, fun id => ⟨fun hid => ?_, hp.below id⟩, hp.ids, hp.uris, ?_⟩
  · rcases Nat.lt_trichotomy id m.world.own.tokenNumber with hlt | rfl | hgt
    · exact hlt
    · exact absurd hid hnone
    · exact absurd (hp.above id hgt) hid
  · intro later m' hlater hidle' e he
    obtain ⟨world, stack⟩ := m
    cases hidle
    obtain ⟨h', -, hp', hsettled'⟩ := recorded_idle hp hlater hidle'
    have he' : e ∈ h' := hsettled'.grows.subset he
    have hid : e.tokenId ∈ List.range m'.world.own.tokenNumber := by
      rw [← hp'.ids]
      exact List.mem_map_of_mem he'
    exact ⟨hp'.below _ (List.mem_range.mp hid), hp'.uris e he'⟩

/-- The contract `21` mints, mints again from inside `onERC721Received`, which
reverts there, and takes the token. -/
def nestedEvents : List (Event Msg Nat) :=
  [.call ⟨21, by decide, fun a => a = 21, .mintNFT "one"⟩,
   .call ⟨21, by decide, fun a => a = 21, .mintNFT "two"⟩,
   .answer onERC721Received]

/-- One token, with the URI of the outer call. -/
theorem metadata_permanent_nested :
    ∃ (m : BasicMachine) (h : List Mint), Run Step ⟨constructor, []⟩ nestedEvents m ∧
      m.world.own.tokenNumber = 1 ∧ tokenURI m.world 0 = "one" ∧ h.map Mint.tokenId = [0] ∧
      ∀ e ∈ h, tokenURI m.world e.tokenId = e.uri := by
  obtain ⟨m, hrun, hidle, hnumber, huri⟩ : ∃ m : BasicMachine,
      Run Step ⟨constructor, []⟩ nestedEvents m ∧ m.stack.isEmpty = true ∧
        m.world.own.tokenNumber = 1 ∧ tokenURI m.world 0 = "one" :=
    ⟨_, Run.of_foldlM (fun _ _ _ h => h) (Option.some_get (by decide +kernel)).symm,
      by decide +kernel, by decide +kernel, by decide +kernel⟩
  obtain ⟨h, -, -, hids, huris, -⟩ := metadata_permanent hrun (List.isEmpty_iff.mp hidle)
  refine ⟨m, h, hrun, hnumber, huri, ?_, huris⟩
  rw [hids, getCurrentTokenNumber, hnumber]
  rfl

end BasicNFT

end AdvFoundry.Nft
