import AdvFoundry.Lottery.Raffle

/-!
# The raffle and its outstanding request

The raffle waits for the coordinator exactly while one request of it is
outstanding, as long as every drawn winner takes the prize
(`calculating_iff_outstanding`). A winner that refuses the ETH reverts the whole
callback: the raffle is back in `CALCULATING_WINNER`, and the coordinator has
removed the request for good (`refused_prize_strands_raffle`).
-/

namespace AdvFoundry.Lottery

open Function

/-- Exactly one request of `consumer` waits for its delivery. -/
def OneOutstanding (v : VRFCoordinator) (consumer : Address) : Prop :=
  ∃! id, v.Outstanding consumer id

/-- The raffle waits exactly for its one request. The draw needs players and a
word, and a fresh id needs the record of the old ones. -/
structure Paired (this : Address) (w : World) : Prop where
  waits : w.raffle.raffleState = .CALCULATING_WINNER →
    OneOutstanding w.coordinator this ∧ w.raffle.players ≠ []
  idle : w.raffle.raffleState = .OPEN → ∀ id, ¬ w.coordinator.Outstanding this id
  words : ∀ id request, w.coordinator.requests id = some ⟨this, request⟩ →
    request.numWords = NUMBER_OF_WORDS
  issued : ∀ id, w.coordinator.requests id ≠ none → w.coordinator.issued id = true

theorem Paired.calculating {this : Address} {w : World} {id : Nat} (h : Paired this w)
    (hid : w.coordinator.Outstanding this id) : w.raffle.raffleState = .CALCULATING_WINNER := by
  cases hstate : w.raffle.raffleState with
  | CALCULATING_WINNER => rfl
  | OPEN => exact absurd hid (h.idle hstate id)

theorem Paired.iff {this : Address} {w : World} (h : Paired this w) :
    w.raffle.raffleState = .CALCULATING_WINNER ↔ OneOutstanding w.coordinator this :=
  ⟨fun hcalc => (h.waits hcalc).1, fun ⟨_, hid, _⟩ => h.calculating hid⟩

namespace RequestLemmas

variable {site : Site} {this sender : Address} {w w' : World} {v : VRFCoordinator}
  {request : RandomWordsRequest} {id : Nat}

/-- Every answer to a payment is an acceptance. -/
def Accepted (a : Option Unit) : Prop := a ≠ none

abbrev Keeps {α : Type} (this : Address) (o : Outcome RaffleError World Payment Unit α) : Prop :=
  o.Safe (Paired this) Accepted (fun _ => True) fun _ => Paired this

/-! ## Writes that keep the pairing -/

/-- What matters is the raffle's state, whether it has players, and its own
requests. -/
theorem paired_frame (hw : Paired this w) (hstate : w'.raffle.raffleState = w.raffle.raffleState)
    (hplayers : w.raffle.players ≠ [] → w'.raffle.players ≠ [])
    (hown : ∀ id request, w'.coordinator.requests id = some ⟨this, request⟩ ↔
      w.coordinator.requests id = some ⟨this, request⟩)
    (hissued : ∀ id, w'.coordinator.requests id ≠ none → w'.coordinator.issued id = true) :
    Paired this w' := by
  have hout : w'.coordinator.Outstanding this = w.coordinator.Outstanding this := by
    funext id
    exact propext (exists_congr fun request => hown id request)
  refine ⟨fun hcalc => ?_, fun hopen => ?_, fun id request h => ?_, hissued⟩
  · obtain ⟨hone, hsome⟩ := hw.waits (hstate ▸ hcalc)
    unfold OneOutstanding
    rw [hout]
    exact ⟨hone, hplayers hsome⟩
  · rw [hout]
    exact hw.idle (hstate ▸ hopen)
  · exact hw.words id request ((hown id request).mp h)

/-- A request of another consumer does not concern the raffle. -/
theorem paired_add_other (hw : Paired this w) (hsender : sender ≠ this)
    (hid : w.coordinator.issued id = false) :
    Paired this (w.setCoordinator (w.coordinator.addRequest id ⟨sender, request⟩)) := by
  exact paired_frame hw rfl (fun h => h)
    (fun _ _ => VRFCoordinator.own_addRequest hsender hw.issued hid)
    (VRFCoordinator.issued_addRequest hw.issued)

/-- The raffle's own request starts the wait. -/
theorem paired_add_own (hw : Paired this w) (hopen : w.raffle.raffleState = .OPEN)
    (hplayers : w.raffle.players ≠ []) (hwords : request.numWords = NUMBER_OF_WORDS) :
    Paired this (({ w with raffle := { w.raffle with raffleState := .CALCULATING_WINNER } } :
      World).setCoordinator (w.coordinator.addRequest id ⟨this, request⟩)) := by
  have hidle := hw.idle hopen
  refine ⟨fun _ => ⟨⟨id, ?_, fun n hn => ?_⟩, hplayers⟩, fun hstate => ?_, fun n r => ?_,
    VRFCoordinator.issued_addRequest hw.issued⟩
  · exact VRFCoordinator.outstanding_addRequest.mpr (by simp)
  · have hn := VRFCoordinator.outstanding_addRequest.mp hn
    by_contra hne
    exact hidle n (by simpa [hne] using hn)
  · cases hstate
  · have hold := hw.words n r
    simp only [World.setCoordinator, VRFCoordinator.addRequest_requests]
    split
    · simp only [Option.some.injEq, Pending.mk.injEq, true_and]
      rintro rfl
      exact hwords
    · exact hold

/-- The delivery of another consumer's request does not concern the raffle. -/
theorem paired_remove_other (hw : Paired this w)
    (hpending : w.coordinator.requests id = some ⟨sender, request⟩) (hsender : sender ≠ this) :
    Paired this (w.setCoordinator (w.coordinator.removeRequest id)) := by
  exact paired_frame hw rfl (fun h => h)
    (fun _ _ => VRFCoordinator.own_removeRequest hsender hpending)
    (VRFCoordinator.issued_removeRequest hw.issued)

/-- Once its request is taken and the raffle open again, none is outstanding. -/
theorem paired_remove_own (hw : Paired this w) (hcalc : w.raffle.raffleState = .CALCULATING_WINNER)
    (hpending : w.coordinator.requests id = some ⟨this, request⟩)
    (hrequests : w'.coordinator.requests = (w.coordinator.removeRequest id).requests)
    (hissued : w'.coordinator.issued = w.coordinator.issued)
    (hopen : w'.raffle.raffleState = .OPEN) : Paired this w' := by
  obtain ⟨n₀, -, honly⟩ := (hw.waits hcalc).1
  have hid : id = n₀ := honly id ⟨request, hpending⟩
  refine ⟨fun h => ?_, fun _ n hn => ?_, fun n r h => ?_, fun n h => ?_⟩
  · rw [hopen] at h
    cases h
  · obtain ⟨r, hr⟩ := hn
    obtain ⟨hne, hold⟩ := VRFCoordinator.of_removeRequest (hrequests ▸ hr)
    exact hne ((honly n ⟨r, hold⟩).trans hid.symm)
  · exact hw.words n r (VRFCoordinator.of_removeRequest (hrequests ▸ h)).2
  · rw [hissued]
    rw [hrequests] at h
    exact VRFCoordinator.issued_removeRequest hw.issued n h

/-! ## The calls -/

theorem callVrf_ok {α : Type} {x : Tx VrfError VRFCoordinator α} {a : α} :
    callVrf x w = .ok (a, w') ↔ ∃ v, x w.coordinator = .ok (a, v) ∧ w' = w.setCoordinator v := by
  simp [callVrf]

theorem keeps_tx {α : Type} {x : RaffleTx α} (hok : ∀ a w', x w = .ok (a, w') → Paired this w') :
    Keeps this ((Proc.tx x : RaffleProc α) w) :=
  Proc.safe_tx hok fun _ _ => trivial

theorem keeps_modify {f : World → World} (h : Paired this (f w)) :
    Keeps this ((Proc.tx (Tx.modify f) : RaffleProc Unit) w) := by
  refine keeps_tx fun _ w' hw' => ?_
  rw [Tx.modify_ok.mp hw']
  exact h

theorem enterRaffle_ok {value : Nat} {u : Unit} (h : enterRaffle sender value w = .ok (u, w')) :
    w.raffle.entranceFee ≤ value ∧ w.raffle.raffleState = .OPEN ∧
      w' = { w with
        balance := w.balance + value
        raffle := { w.raffle with players := w.raffle.players ++ [sender] } } := by
  simp only [enterRaffle, Tx.bind_ok, Tx.modify_ok, Tx.get_ok, Tx.revertIf_ok] at h
  obtain ⟨_, _, rfl, _, _, ⟨rfl, rfl⟩, _, _, ⟨hfee, rfl⟩, _, _, ⟨hopen, rfl⟩, rfl⟩ := h
  exact ⟨Nat.not_lt.mp hfee, not_not.mp hopen, rfl⟩

theorem performUpkeep_ok {requestId : Option Nat} {u : Unit}
    (h : performUpkeep site requestId w = .ok (u, w')) :
    w.raffle.raffleState = .OPEN ∧ w.raffle.players ≠ [] ∧
      ∃ id request, w.coordinator.issued id = false ∧ request.numWords = NUMBER_OF_WORDS ∧
        w' = ({ w with raffle := { w.raffle with raffleState := .CALCULATING_WINNER } } :
          World).setCoordinator (w.coordinator.addRequest id ⟨site.this, request⟩) := by
  simp only [performUpkeep, checkUpkeep, Tx.bind_ok, Tx.view_ok, Result.bind_ok, subU_ok,
    Result.pure_ok, Tx.get_ok, Tx.revertIf_ok, Tx.modify_ok, callVrf_ok,
    VRFCoordinator.requestRandomWords_ok] at h
  obtain ⟨_, w, ⟨⟨_, ⟨-, rfl⟩, rfl⟩, rfl⟩, _, _, ⟨rfl, rfl⟩, _, _, ⟨hneeded, rfl⟩, _, _, rfl, v,
    ⟨-, n, -, hn, rfl⟩, rfl⟩ := h
  simp only [Bool.not_eq_false, decide_eq_true_eq] at hneeded
  obtain ⟨-, hopen, hplayers, -⟩ := hneeded
  exact ⟨hopen, List.length_pos_iff.mp hplayers, n, _, hn, rfl, rfl⟩

theorem keeps_enterRaffle {value : Nat} (hw : Paired this w) :
    Keeps this ((Proc.tx (enterRaffle sender value) : RaffleProc Unit) w) := by
  refine keeps_tx fun _ w' h => ?_
  obtain ⟨-, -, rfl⟩ := enterRaffle_ok h
  exact paired_frame hw rfl (fun _ => by simp) (fun _ _ => Iff.rfl) hw.issued

theorem keeps_performUpkeep {requestId : Option Nat} (hw : Paired site.this w) :
    Keeps site.this ((Proc.tx (performUpkeep site requestId) : RaffleProc Unit) w) := by
  refine keeps_tx fun _ w' h => ?_
  obtain ⟨hopen, hplayers, id, request, -, hwords, rfl⟩ := performUpkeep_ok h
  exact paired_add_own hw hopen hplayers hwords

/-- A draw among players with a word succeeds. -/
theorem drawWinner_ok {players : List Address} (h : players ≠ []) (word : Nat) (rest : List Nat) :
    ∃ winner ∈ players, drawWinner players (word :: rest) = .ok winner := by
  have hpos := List.length_pos_iff.mpr h
  have hlt : word % players.length < players.length := Nat.mod_lt _ hpos
  refine ⟨players[word % players.length], List.getElem_mem hlt, ?_⟩
  simp [drawWinner, Nat.pos_iff_ne_zero.mp hpos, List.getElem?_eq_getElem hlt]

/-! ## Deliveries -/

/-- The world in which the winner of a draw is paid. -/
def drawn (w : World) (requestId : Nat) (winner : Address) : World :=
  { w with
    balance := 0
    coordinator := w.coordinator.removeRequest requestId
    raffle := { w.raffle with
      recentWinner := winner
      raffleState := .OPEN
      lastBlockTimeStamp := w.timestamp
      players := [] } }

/-- How a delivery goes on from the answer to the payment. A refusal takes back
the whole callback, and the coordinator goes on all the same. -/
def delivered (w : World) (requestId : Nat) (charged : Bool) :
    Option Unit → World → Outcome RaffleError World Payment Unit Unit
  | some (), w' => (Proc.tx (callVrf (VRFCoordinator.finish charged)) : RaffleProc Unit) w'
  | none, _ => (Proc.tx (callVrf (VRFCoordinator.finish charged)) : RaffleProc Unit)
      (w.setCoordinator (w.coordinator.removeRequest requestId))

theorem callback_eq {winner : Address} {words : List Nat} {charged : Bool}
    (hdraw : drawWinner w.raffle.players words = .ok winner) :
    (Proc.attempt (rawFulfillRandomWords site site.vrfCoordinator words) >>= fun _ =>
        (Proc.tx (callVrf (VRFCoordinator.finish charged)) : RaffleProc Unit))
        (w.setCoordinator (w.coordinator.removeRequest id)) =
      .waiting ⟨winner, w.balance⟩ (drawn w id winner) (delivered w id charged) := by
  have hview : (Tx.view fun w => drawWinner w.raffle.players words : RaffleTx Address)
      (w.setCoordinator (w.coordinator.removeRequest id)) = .ok (winner, _) :=
    Tx.view_ok.mpr ⟨hdraw, rfl⟩
  show ((rawFulfillRandomWords site site.vrfCoordinator words _).attempt _).bind _ = _
  unfold rawFulfillRandomWords fulfillRandomWords
  rw [Proc.tx_bind_ok (Tx.revertIf_ok (u := ()).mpr ⟨fun h => h rfl, rfl⟩), Proc.tx_bind_ok hview]
  show Outcome.waiting _ _ _ = Outcome.waiting _ _ _
  congr 1
  funext a s
  cases a <;> rfl

/-- The delivery of a request of the raffle draws a winner and pays out all the
ETH, as long as there are players. -/
theorem deliver_own (word : Nat → Nat) (charged : Bool)
    (hlock : w.coordinator.reentrancyLock = false)
    (hpending : w.coordinator.requests id = some ⟨site.this, request⟩)
    (hwords : request.numWords = NUMBER_OF_WORDS) (hplayers : w.raffle.players ≠ []) :
    ∃ winner ∈ w.raffle.players, deliver site id word charged w =
      .waiting ⟨winner, w.balance⟩ (drawn w id winner) (delivered w id charged) := by
  have htake : callVrf (VRFCoordinator.takeRequest id) w = .ok (⟨site.this, request⟩, _) :=
    callVrf_ok.mpr ⟨_, VRFCoordinator.takeRequest_ok.mpr ⟨hlock, hpending, rfl⟩, rfl⟩
  obtain ⟨winner, hwinner, hdraw⟩ := drawWinner_ok hplayers (word 0) []
  have hone : (List.range request.numWords).map word = [word 0] := by
    rw [hwords]
    rfl
  unfold deliver
  rw [Proc.tx_bind_ok htake, if_pos rfl, hone]
  exact ⟨winner, hwinner, callback_eq hdraw⟩

/-- A delivery is refused, it goes to another consumer, or it is for a request of
the raffle. -/
theorem deliver_cases (site : Site) (id : Nat) (word : Nat → Nat) (charged : Bool) (w : World) :
    (∃ e, deliver site id word charged w = .reverted e) ∨
    (∃ sender request, w.coordinator.requests id = some ⟨sender, request⟩ ∧ sender ≠ site.this ∧
      deliver site id word charged w =
        (Proc.tx (callVrf (VRFCoordinator.finish charged)) : RaffleProc Unit)
          (w.setCoordinator (w.coordinator.removeRequest id))) ∨
    ∃ request, w.coordinator.reentrancyLock = false ∧
      w.coordinator.requests id = some ⟨site.this, request⟩ := by
  unfold deliver
  cases htake : callVrf (VRFCoordinator.takeRequest id) w with
  | error e => exact .inl ⟨e, Proc.tx_bind_error htake⟩
  | ok p =>
    obtain ⟨⟨sender, request⟩, w₁⟩ := p
    rw [Proc.tx_bind_ok htake]
    simp only [callVrf_ok, VRFCoordinator.takeRequest_ok] at htake
    obtain ⟨_, ⟨hlock, hpending, rfl⟩, rfl⟩ := htake
    by_cases hown : sender = site.this
    · exact .inr (.inr ⟨request, hlock, hown ▸ hpending⟩)
    · rw [if_neg hown]
      exact .inr (.inl ⟨sender, request, hpending, hown, rfl⟩)

theorem keeps_finish {charged : Bool} (hw : Paired this w) :
    Keeps this ((Proc.tx (callVrf (VRFCoordinator.finish charged)) : RaffleProc Unit) w) := by
  refine keeps_tx fun _ w' h => ?_
  simp only [callVrf_ok, VRFCoordinator.finish_ok] at h
  obtain ⟨_, ⟨-, rfl⟩, rfl⟩ := h
  exact paired_frame hw rfl (fun h => h) (fun _ _ => Iff.rfl) hw.issued

/-- The raffle is open and its request gone when the winner gets control. -/
theorem keeps_deliver {word : Nat → Nat} {charged : Bool} (hw : Paired site.this w) :
    Keeps site.this (deliver site id word charged w) := by
  rcases deliver_cases site id word charged w with ⟨e, hreverted⟩ |
    ⟨sender, request, hpending, hother, hfinish⟩ | ⟨request, hlock, hpending⟩
  · rw [hreverted]
    trivial
  · rw [hfinish]
    exact keeps_finish (paired_remove_other hw hpending hother)
  · have hcalc := hw.calculating ⟨request, hpending⟩
    obtain ⟨winner, -, hwaiting⟩ :=
      deliver_own word charged hlock hpending (hw.words id request hpending) (hw.waits hcalc).2
    rw [hwaiting]
    refine ⟨paired_remove_own hw hcalc hpending rfl rfl rfl, fun a s ha hs => ?_⟩
    cases a with
    | some u => exact keeps_finish hs
    | none => exact absurd rfl ha

end RequestLemmas

open RequestLemmas

/-! ## Every run -/

/-- Every call keeps the pairing when the payments are accepted. -/
theorem keeps_exec {site : Site} {w : World} (m : Msg site) (hw : Paired site.this w) :
    Keeps site.this (m.exec w) := by
  rcases m with ⟨sender, hthis, hcoordinator, call⟩
  cases call with
  | enterRaffle value => exact keeps_enterRaffle hw
  | performUpkeep id => exact keeps_performUpkeep hw
  | rawFulfillRandomWords words =>
    exact Proc.safe_bind (fun _ _ => False)
      (Proc.safe_revertIf (fun _ => trivial) fun h => h hcoordinator) fun _ _ h => h.elim
  | deliver id word charged => exact keeps_deliver hw
  | request request id =>
    refine keeps_tx fun _ w' h => ?_
    simp only [callVrf_ok, VRFCoordinator.requestRandomWords_ok] at h
    obtain ⟨_, ⟨-, n, -, hn, rfl⟩, rfl⟩ := h
    exact paired_add_other hw hthis hn
  | force amount =>
    exact keeps_modify (f := fun w => { w with balance := w.balance + amount })
      (paired_frame hw rfl (fun h => h) (fun _ _ => Iff.rfl) hw.issued)
  | wait seconds =>
    exact keeps_modify (f := fun w => { w with timestamp := w.timestamp + seconds })
      (paired_frame hw rfl (fun h => h) (fun _ _ => Iff.rfl) hw.issued)

/-- In every run in which every drawn winner takes the prize, the raffle waits
exactly while one request of it is outstanding, in every state of the run. -/
theorem calculating_iff_outstanding {site : Site} {w₀ : World} {m : RaffleMachine}
    {events : List (Event (Msg site) Unit)} (h₀ : Deployed site w₀)
    (hrun : Run (Step site) ⟨w₀, []⟩ events m) (haccept : ∀ ev ∈ events, ev ≠ .fail) :
    m.world.raffle.raffleState = .CALCULATING_WINNER ↔
      OneOutstanding m.world.coordinator site.this := by
  obtain ⟨fee, interval, gasLane, subscription, gasLimit, hbuilt⟩ := h₀.built
  simp only [constructor, Result.bind_ok, Result.pure_ok] at hbuilt
  obtain ⟨_, -, hraffle⟩ := hbuilt
  have hstart : Paired site.this w₀ := by
    refine ⟨fun h => ?_, fun _ => h₀.no_request, fun id request h => ?_, h₀.issued⟩
    · rw [← hraffle] at h
      cases h
    · exact absurd ⟨request, h⟩ (h₀.no_request id)
  have hallows : ∀ ev ∈ events, Machine.Allows Accepted ev := by
    intro ev hev
    cases ev with
    | call l => trivial
    | answer a => simp [Machine.Allows, Accepted]
    | fail => exact absurd rfl (haccept _ hev)
  exact (Machine.sound_run (fun l _ hw => keeps_exec l hw) hrun hallows
    (Machine.sound_idle hstart)).world.iff

/-! ### One player

Raffle at `1`, coordinator at `2`. The account `7` enters alone and is drawn. -/

def sampleSite : Site := ⟨1, 2⟩

def sampleWorld : World where
  raffle := ⟨10, 0, 30, 0, 0, [], 1000, 0, .OPEN⟩
  balance := 0
  coordinator := ⟨fun _ => none, fun _ => false, false⟩
  timestamp := 1000

theorem sampleWorld_deployed : Deployed sampleSite sampleWorld := by
  refine ⟨⟨10, 30, 0, 0, 0, rfl⟩, fun _ h => absurd rfl h, fun _ h => ?_⟩
  obtain ⟨_, h⟩ := h
  cases h

/-- The account `7` enters, the upkeep requests a word, and the word arrives. -/
def drawEvents : List (Event (Msg sampleSite) Unit) :=
  [.call ⟨7, by decide, by decide, .enterRaffle 10⟩,
   .call ⟨7, by decide, by decide, .wait 30⟩,
   .call ⟨8, by decide, by decide, .performUpkeep (some 100)⟩,
   .call ⟨8, by decide, by decide, .deliver 100 (fun _ => 0) true⟩]

/-- A call of the account `7`. -/
def playerCall (call : Call) : Msg sampleSite := ⟨7, by decide, by decide, call⟩

/-- After the upkeep the raffle waits for one request. -/
theorem calculating_after_upkeep :
    ∃ m, Run (Step sampleSite) ⟨sampleWorld, []⟩ (drawEvents.take 3) m ∧
      OneOutstanding m.world.coordinator 1 := by
  have hrun : Run (Step sampleSite) ⟨sampleWorld, []⟩ (drawEvents.take 3) _ :=
    Run.of_foldlM (fun _ _ _ h => h) (Option.some_get (by decide +kernel)).symm
  refine ⟨_, hrun, (calculating_iff_outstanding sampleWorld_deployed hrun ?_).mp (by decide +kernel)⟩
  intro ev hev
  simp only [drawEvents, List.take, List.mem_cons, List.not_mem_nil, or_false] at hev
  rcases hev with rfl | rfl | rfl <;> simp

/-- The account `7` refuses the prize: the raffle waits, and nothing is
outstanding. -/
theorem refused_prize_strands_raffle :
    ¬ ∀ (site : Site) (w₀ : World) (m : RaffleMachine) (events : List (Event (Msg site) Unit)),
      Deployed site w₀ → Run (Step site) ⟨w₀, []⟩ events m →
      (m.world.raffle.raffleState = .CALCULATING_WINNER ↔
        OneOutstanding m.world.coordinator site.this) := by
  intro hall
  have hrun : Run (Step sampleSite) ⟨sampleWorld, []⟩ (drawEvents ++ [Event.fail]) _ :=
    Run.of_foldlM (fun _ _ _ h => h) (Option.some_get (by decide +kernel)).symm
  obtain ⟨id, ⟨request, hid⟩, -⟩ :=
    (hall _ _ _ _ sampleWorld_deployed hrun).mp (by decide +kernel)
  -- the one request there ever was, `100`, has been removed
  have hnone : update (update (fun _ => none) 100
      (some (⟨1, ⟨0, 0, 3, 0, 1, false⟩⟩ : Pending))) 100 none id = some ⟨1, request⟩ := hid
  simp only [update_apply] at hnone
  split at hnone <;> cases hnone

end AdvFoundry.Lottery
