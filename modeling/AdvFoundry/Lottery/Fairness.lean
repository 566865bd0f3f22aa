import AdvFoundry.Lottery.Prizes
import AdvFoundry.Sampling.Modulo

/-!
# Fair draws, and rounds that end

Which word draws whom, and when a round can still end.

`draw_fair`: a delivery that finds the raffle waiting gives each player, out of
the `2 ^ 256` words, as many as its entries get when the words go around the
players in order. Nobody's chance is off by more than one word an entry.

`round_ends_iff`: while no call waits, a round with players and ETH can end, in
at most four calls and for every word the coordinator comes up with, unless the
raffle waits and its request is gone. Then nothing anyone does ever moves the
players, the winner or the ETH again.
-/

namespace AdvFoundry.Lottery

open Function RequestLemmas Sampling

/-- The same sender with another call. -/
def Msg.sends {site : Site} (l : Msg site) (call : Call) : Msg site := { l with call := call }

/-- No call waits, and the raffle has paid everything to `winner` and is open
for the next round. -/
structure RoundOver (winner : Address) (m : RaffleMachine) : Prop where
  idle : m.stack = []
  raffleState : m.world.raffle.raffleState = .OPEN
  recentWinner : m.world.raffle.recentWinner = winner
  players : m.world.raffle.players = []
  balance : m.world.balance = 0

/-- When `word` is delivered for the request `id`, all the ETH goes to `a`; once
`a` takes it, the round is over. -/
def Wins {site : Site} (l : Msg site) (m : RaffleMachine) (id word : Nat) (a : Address) : Prop :=
  ∃ m₁ f m₂, Step site m (.call (l.sends (.deliver id (fun _ => word) true))) m₁ ∧
    m₁.stack = [f] ∧ f.query = ⟨a, m.world.balance⟩ ∧ Step site m₁ (.answer ()) m₂ ∧
    RoundOver a m₂

/-- The words with which `a` wins. -/
def winningWords {site : Site} (l : Msg site) (m : RaffleMachine) (id : Nat) (a : Address) :
    Set Nat :=
  {word | word < uintSize ∧ Wins l m id word a}

namespace FairnessLemmas

variable {site : Site} {w w₀ w' : World} {m : RaffleMachine} {id word : Nat} {a : Address}
  {request : RandomWordsRequest} {l : Msg site}

/-! ## What holds while no call waits -/

/-- What a call does to the lock it undoes. -/
def SameLock (w w' : World) : Prop :=
  w'.coordinator.reentrancyLock = w.coordinator.reentrancyLock

abbrev KeepsLock (w : World) (o : Outcome RaffleError World Payment Unit Unit) : Prop :=
  o.Relies (fun _ => True) SameLock fun _ w' => True ∧ SameLock w w'

theorem keepsLock_tx {x : RaffleTx Unit} (h : ∀ w', x w = .ok ((), w') → SameLock w w') :
    KeepsLock w ((Proc.tx x : RaffleProc Unit) w) :=
  Proc.relies_tx fun _ w' hw' => ⟨trivial, h w' hw'⟩

/-- The callback runs with the lock taken, and leaves it taken. -/
theorem fulfillRandomWords_lock {words : List Nat} (hlock : w.coordinator.reentrancyLock = true) :
    (fulfillRandomWords words w).Relies (fun _ => True) SameLock
      fun _ w' => w'.coordinator.reentrancyLock = true := by
  unfold fulfillRandomWords
  refine Proc.relies_tx_bind fun winner w₁ h₁ => ?_
  obtain ⟨-, rfl⟩ := Tx.view_ok.mp h₁
  refine Proc.relies_tx_bind fun _ w₂ h₂ => ?_
  rw [Tx.modify_ok.mp h₂]
  refine Proc.relies_bind (fun _ w' => w'.coordinator.reentrancyLock = true) ?_ fun success w₃ h₃ =>
    Proc.relies_tx fun _ w₄ h₄ => ?_
  · unfold payAll
    refine ⟨trivial, fun answer w₃ _ hsame => ?_⟩
    have hlock₃ : w₃.coordinator.reentrancyLock = true := hsame.trans hlock
    cases answer with
    | some u => exact hlock₃
    | none => exact hlock₃
  · obtain ⟨-, rfl⟩ := Tx.revertIf_ok.mp h₄
    exact h₃

theorem deliver_lock {word : Nat → Nat} {charged : Bool} :
    KeepsLock w (deliver site id word charged w) := by
  unfold deliver
  refine Proc.relies_tx_bind fun pending w₁ h₁ => ?_
  obtain ⟨v, hv, rfl⟩ := callVrf_ok.mp h₁
  obtain ⟨hfree, -, rfl⟩ := VRFCoordinator.takeRequest_ok.mp hv
  have hfinish : ∀ w₂ : World,
      KeepsLock w ((Proc.tx (callVrf (VRFCoordinator.finish charged)) : RaffleProc Unit) w₂) := by
    refine fun w₂ => Proc.relies_tx fun _ w₃ h₃ => ⟨trivial, ?_⟩
    obtain ⟨v, hv, rfl⟩ := callVrf_ok.mp h₃
    obtain ⟨-, rfl⟩ := VRFCoordinator.finish_ok.mp hv
    exact hfree.symm
  split
  · have hcallback : (rawFulfillRandomWords site site.vrfCoordinator
        ((List.range pending.request.numWords).map word)
        (w.setCoordinator (w.coordinator.removeRequest id))).Relies (fun _ => True) SameLock
          fun _ w' => w'.coordinator.reentrancyLock = true := by
      unfold rawFulfillRandomWords
      refine Proc.relies_tx_bind fun _ w₂ h₂ => ?_
      obtain ⟨-, rfl⟩ := Tx.revertIf_ok.mp h₂
      exact fulfillRandomWords_lock rfl
    exact Proc.relies_bind (fun _ _ => True)
      (Outcome.relies_attempt hcallback (fun _ _ _ => trivial) trivial) fun _ w₂ _ => hfinish w₂
  · exact hfinish _

theorem exec_lock (l : Msg site) (w : World) : KeepsLock w (l.exec w) := by
  rcases l with ⟨sender, hthis, hcoordinator, call⟩
  cases call with
  | enterRaffle value =>
    refine keepsLock_tx fun w' h => ?_
    obtain ⟨-, -, rfl⟩ := enterRaffle_ok h
    rfl
  | performUpkeep requestId =>
    refine keepsLock_tx fun w' h => ?_
    obtain ⟨-, -, n, request, -, -, rfl⟩ := performUpkeep_ok h
    rfl
  | rawFulfillRandomWords words =>
    refine Proc.relies_tx_bind fun _ w' h => ?_
    exact absurd hcoordinator (Tx.revertIf_ok.mp h).1
  | deliver n word charged => exact deliver_lock
  | request request n =>
    refine keepsLock_tx fun w' h => ?_
    obtain ⟨v, hv, rfl⟩ := callVrf_ok.mp h
    obtain ⟨-, n, -, -, rfl⟩ := VRFCoordinator.requestRandomWords_ok.mp hv
    rfl
  | force amount =>
    refine keepsLock_tx (x := Tx.modify fun w => { w with balance := w.balance + amount })
      fun w' h => ?_
    rw [Tx.modify_ok.mp h]
    rfl
  | wait seconds =>
    refine keepsLock_tx (x := Tx.modify fun w => { w with timestamp := w.timestamp + seconds })
      fun w' h => ?_
    rw [Tx.modify_ok.mp h]
    rfl

/-- The coordinator is unlocked whenever no call waits. -/
theorem unlocked_run {events : List (Event (Msg site) Unit)}
    (hfree : w₀.coordinator.reentrancyLock = false) (hrun : Run (Step site) ⟨w₀, []⟩ events m)
    (hidle : m.stack = []) : m.world.coordinator.reentrancyLock = false := by
  have hsteady : m.Steady (fun _ => True) SameLock w₀ :=
    Machine.steady_run (fun _ => rfl) (fun _ _ _ h h' => h'.trans h)
      (fun l w _ => exec_lock l w) hrun ⟨trivial, rfl⟩
  have hchain := hsteady.chain
  rw [hidle] at hchain
  exact hchain.trans hfree

/-- The raffle and its record agree in every run. -/
theorem accounted_run {events : List (Event (Msg site) Unit)} (h₀ : Deployed site w₀)
    (hrun : Run (Step site) ⟨w₀, []⟩ events m) : ∃ h, Accounted site True (m.world, h) := by
  obtain ⟨fee, interval, gasLane, subscription, gasLimit, hbuilt⟩ := h₀.built
  simp only [constructor, Result.bind_ok, Result.pure_ok] at hbuilt
  obtain ⟨_, -, hraffle⟩ := hbuilt
  have hopen : w₀.raffle.raffleState = .OPEN := by rw [← hraffle]
  have hstart : Accounted site True (w₀, History.empty w₀.balance) := by
    refine ⟨⟨fun n hn => absurd hn (h₀.no_request n), fun n _ hn => absurd hn (h₀.no_request n),
      fun n r hn => absurd ⟨r, hn⟩ (h₀.no_request n), h₀.issued⟩, ?_, fun e he => (by cases he), ?_,
      fun hno => absurd trivial hno, fun hcalc => ?_, rfl, fun d hd => (by cases hd)⟩
    · rw [← hraffle]
      rfl
    · simp [History.empty, total]
    · exact absurd (hopen.symm.trans hcalc) (by decide)
  have hrecords : Machine.Records (history site) (⟨w₀, []⟩ : RaffleMachine)
      ⟨(w₀, History.empty w₀.balance), []⟩ := ⟨rfl, .nil⟩
  obtain ⟨m', hrecorded, hworld⟩ := Machine.recorded_run hrun hrecords
  have hsound : m'.Sound (Accounted site True) (fun _ => True) fun _ => True :=
    Machine.sound_run (fun l p hp => accounted_exec l (fun _ _ => trivial) p hp) hrecorded
      (fun ev _ => by cases ev <;> trivial) (Machine.sound_idle hstart)
  exact ⟨m'.world.2, hworld.world ▸ hsound.world⟩

/-! ## Draws -/

theorem drawWinner_pick {players : List Address} {rest : List Nat} (h : pick players word = some a) :
    drawWinner players (word :: rest) = .ok a := by
  have hsome : players ≠ [] := by
    rintro rfl
    cases h
  have hpos : players.length ≠ 0 := by simpa using hsome
  unfold pick at h
  simp [drawWinner, hpos, h]

/-- The delivery of a word that picks `a`. -/
theorem deliver_pick {charged : Bool} (hlock : w.coordinator.reentrancyLock = false)
    (hpending : w.coordinator.requests id = some ⟨site.this, request⟩)
    (hwords : request.numWords = NUMBER_OF_WORDS) (hpick : pick w.raffle.players word = some a) :
    deliver site id (fun _ => word) charged w =
      .waiting ⟨a, w.balance⟩ (drawn w id a) (delivered w id charged) := by
  have htake : callVrf (VRFCoordinator.takeRequest id) w = .ok (⟨site.this, request⟩, _) :=
    callVrf_ok.mpr ⟨_, VRFCoordinator.takeRequest_ok.mpr ⟨hlock, hpending, rfl⟩, rfl⟩
  have hone : (List.range request.numWords).map (fun _ => word) = [word] := by
    rw [hwords]
    rfl
  unfold deliver
  rw [Proc.tx_bind_ok htake, if_pos rfl, hone]
  exact callback_eq (drawWinner_pick hpick)

/-- The world after the prize is taken. -/
def paidOut (w : World) (id : Nat) (a : Address) : World :=
  (drawn w id a).setCoordinator
    { (w.coordinator.removeRequest id) with reentrancyLock := false }

theorem roundOver_paidOut : RoundOver a ⟨paidOut w id a, []⟩ := ⟨rfl, rfl, rfl, rfl, rfl⟩

/-- The delivery and the payment, step by step. -/
theorem step_deliver (hlock : w.coordinator.reentrancyLock = false)
    (hpending : w.coordinator.requests id = some ⟨site.this, request⟩)
    (hwords : request.numWords = NUMBER_OF_WORDS) (hpick : pick w.raffle.players word = some a) :
    Step site ⟨w, []⟩ (.call (l.sends (.deliver id (fun _ => word) true)))
        ⟨drawn w id a, [⟨w, drawn w id a, ⟨a, w.balance⟩, delivered w id true⟩]⟩ ∧
      Step site ⟨drawn w id a, [⟨w, drawn w id a, ⟨a, w.balance⟩, delivered w id true⟩]⟩
        (.answer ()) ⟨paidOut w id a, []⟩ := by
  refine ⟨?_, rfl⟩
  show some (Machine.settle w [] (deliver site id (fun _ => word) true w)) = _
  rw [deliver_pick hlock hpending hwords hpick]
  rfl

/-- A word makes `a` the winner exactly when it picks one of `a`'s entries. -/
theorem wins_iff (hlock : w.coordinator.reentrancyLock = false)
    (hpending : w.coordinator.requests id = some ⟨site.this, request⟩)
    (hwords : request.numWords = NUMBER_OF_WORDS) (hplayers : w.raffle.players ≠ []) :
    Wins l ⟨w, []⟩ id word a ↔ pick w.raffle.players word = some a := by
  constructor
  · rintro ⟨m₁, f, m₂, hcall, hstack, hquery, -⟩
    obtain ⟨b, hb⟩ := Option.isSome_iff_exists.mp (pick_isSome hplayers word)
    have hwaiting := (step_deliver (l := l) hlock hpending hwords hb).1
    have hsame : some m₁ = some _ := hcall.symm.trans hwaiting
    cases hsame
    cases hstack
    have hab : b = a := congrArg Payment.dst hquery
    exact hab ▸ hb
  · intro hpick
    obtain ⟨hcall, hanswer⟩ := step_deliver (l := l) hlock hpending hwords hpick
    exact ⟨_, _, _, hcall, rfl, rfl, hanswer, roundOver_paidOut⟩

end FairnessLemmas

open FairnessLemmas

/-- The accounts `7`, `9` and `7` again enter, and the upkeep requests a word. -/
def threeEntries : List (Event (Msg sampleSite) Unit) :=
  [.call (playerCall (.enterRaffle 10)), .call ⟨9, by decide, by decide, .enterRaffle 10⟩,
   .call (playerCall (.enterRaffle 10)), .call (playerCall (.wait 30)),
   .call (playerCall (.performUpkeep (some 100)))]

namespace FairnessLemmas

variable {site : Site} {w w' : World} {m m' : RaffleMachine} {r : Raffle} {balance id word : Nat}
  {a : Address} {request : RandomWordsRequest}

/-- The raffle `r` waits for a word that nobody can deliver, with this much ETH. -/
structure Stranded (this : Address) (r : Raffle) (balance : Nat) (w : World) : Prop where
  raffle : w.raffle = r
  waits : w.raffle.raffleState = .CALCULATING_WINNER
  no_request : ∀ n, ¬ w.coordinator.Outstanding this n
  issued : ∀ n, w.coordinator.requests n ≠ none → w.coordinator.issued n = true
  balance : balance ≤ w.balance

abbrev StaysStranded (this : Address) (r : Raffle) (balance : Nat)
    (o : Outcome RaffleError World Payment Unit Unit) : Prop :=
  o.Safe (Stranded this r balance) (fun _ => True) (fun _ => True) fun _ => Stranded this r balance

theorem stranded_tx {x : RaffleTx Unit}
    (h : ∀ w', x w = .ok ((), w') → Stranded site.this r balance w') :
    StaysStranded site.this r balance ((Proc.tx x : RaffleProc Unit) w) :=
  Proc.safe_tx (fun _ => h) fun _ _ => trivial

/-- The other consumers' requests come and go. -/
theorem stranded_coordinator {v : VRFCoordinator} (hw : Stranded site.this r balance w)
    (hown : ∀ n request, v.requests n = some ⟨site.this, request⟩ ↔
      w.coordinator.requests n = some ⟨site.this, request⟩)
    (hissued : ∀ n, v.requests n ≠ none → v.issued n = true) :
    Stranded site.this r balance (w.setCoordinator v) :=
  ⟨hw.raffle, hw.waits, fun n ⟨request, hn⟩ => hw.no_request n ⟨request, (hown n request).mp hn⟩,
    hissued, hw.balance⟩

theorem stranded_exec (l : Msg site) (hw : Stranded site.this r balance w) :
    StaysStranded site.this r balance (l.exec w) := by
  have hclosed : w.raffle.raffleState ≠ .OPEN := by
    rw [hw.waits]
    decide
  rcases l with ⟨sender, hthis, hcoordinator, call⟩
  cases call with
  | enterRaffle value => exact stranded_tx fun w' h => absurd (enterRaffle_ok h).2.1 hclosed
  | performUpkeep requestId => exact stranded_tx fun w' h => absurd (performUpkeep_ok h).1 hclosed
  | rawFulfillRandomWords words =>
    exact Proc.safe_bind (fun _ _ => False)
      (Proc.safe_revertIf (fun _ => trivial) fun h => h hcoordinator) fun _ _ h => h.elim
  | deliver n word charged =>
    show StaysStranded site.this r balance (deliver site n word charged w)
    rcases deliver_cases site n word charged w with ⟨e, hreverted⟩ |
      ⟨other, request, hpending, hother, hfinish⟩ | ⟨request, -, hpending⟩
    · rw [hreverted]
      trivial
    · rw [hfinish]
      refine stranded_tx fun w' h => ?_
      obtain ⟨v, hv, rfl⟩ := callVrf_ok.mp h
      obtain ⟨-, rfl⟩ := VRFCoordinator.finish_ok.mp hv
      exact stranded_coordinator (stranded_coordinator hw
        (fun _ _ => VRFCoordinator.own_removeRequest hother hpending)
        (VRFCoordinator.issued_removeRequest hw.issued)) (fun _ _ => Iff.rfl)
        (VRFCoordinator.issued_removeRequest hw.issued)
    · exact absurd ⟨request, hpending⟩ (hw.no_request n)
  | request request n =>
    refine stranded_tx fun w' h => ?_
    obtain ⟨v, hv, rfl⟩ := callVrf_ok.mp h
    obtain ⟨-, k, -, hk, rfl⟩ := VRFCoordinator.requestRandomWords_ok.mp hv
    exact stranded_coordinator hw (fun _ _ => VRFCoordinator.own_addRequest hthis hw.issued hk)
      (VRFCoordinator.issued_addRequest hw.issued)
  | force amount =>
    exact ⟨hw.raffle, hw.waits, hw.no_request, hw.issued, Nat.le_add_right_of_le hw.balance⟩
  | wait seconds => exact ⟨hw.raffle, hw.waits, hw.no_request, hw.issued, hw.balance⟩

/-- Once stranded, always stranded. -/
theorem stranded_run {events : List (Event (Msg site) Unit)} (hidle : m.stack = [])
    (hw : Stranded site.this r balance m.world) (hrun : Run (Step site) m events m') :
    Stranded site.this r balance m'.world := by
  obtain ⟨w, stack⟩ := m
  cases hidle
  exact (Machine.sound_run (fun l _ hw => stranded_exec l hw) hrun
    (fun ev _ => by cases ev <;> trivial) (Machine.sound_idle hw)).world

/-! ### The calls that end a round -/

/-- The raffle closed, with its request `id` on its way. -/
def requested (site : Site) (w : World) (id : Nat) (request : RandomWordsRequest) : World :=
  ({ w with raffle := { w.raffle with raffleState := .CALCULATING_WINNER } } :
    World).setCoordinator (w.coordinator.addRequest id ⟨site.this, request⟩)

/-- `performUpkeep` goes through once the interval is over. -/
theorem step_performUpkeep (l : Msg site) (hopen : w.raffle.raffleState = .OPEN)
    (hplayers : w.raffle.players ≠ []) (hbalance : 0 < w.balance)
    (hinterval : w.raffle.lastBlockTimeStamp + w.raffle.interval ≤ w.timestamp)
    (hlock : w.coordinator.reentrancyLock = false) (hid : w.coordinator.issued id = false) :
    ∃ request, request.numWords = NUMBER_OF_WORDS ∧
      Step site ⟨w, []⟩ (.call (l.sends (.performUpkeep (some id))))
        ⟨requested site w id request, []⟩ := by
  have hcheck : checkUpkeep w = .ok true := by
    have hlength := List.length_pos_iff.mpr hplayers
    have helapsed : w.raffle.interval ≤ w.timestamp - w.raffle.lastBlockTimeStamp :=
      Nat.le_sub_of_add_le' hinterval
    simp only [checkUpkeep, Result.bind_ok, subU_ok, Result.pure_ok]
    exact ⟨_, ⟨Nat.le_of_add_right_le hinterval, rfl⟩,
      decide_eq_true ⟨helapsed, hopen, hlength, hbalance⟩⟩
  have hreturn : ∃ request, request.numWords = NUMBER_OF_WORDS ∧
      performUpkeep site (some id) w = .ok ((), requested site w id request) := by
    simp only [performUpkeep, Tx.bind_ok]
    exact ⟨_, rfl, true, w, Tx.view_ok.mpr ⟨hcheck, rfl⟩, w, w, Tx.get_ok.mpr ⟨rfl, rfl⟩, (), w,
      Tx.revertIf_ok.mpr ⟨by decide, rfl⟩, (), _, Tx.modify_ok.mpr rfl,
      callVrf_ok.mpr ⟨_, VRFCoordinator.requestRandomWords_ok.mpr ⟨hlock, id, rfl, hid, rfl⟩, rfl⟩⟩
  obtain ⟨request, hwords, hok⟩ := hreturn
  refine ⟨request, hwords, ?_⟩
  show some (Machine.settle w [] ((Proc.tx (performUpkeep site (some id)) : RaffleProc Unit) w)) = _
  rw [Proc.tx_returned.mpr hok]
  rfl

/-- Two more calls end a round that waits for its word. -/
theorem run_deliver {events : List (Event (Msg site) Unit)} (l : Msg site)
    (hrun : Run (Step site) m events ⟨w, []⟩) (hlock : w.coordinator.reentrancyLock = false)
    (hpending : w.coordinator.requests id = some ⟨site.this, request⟩)
    (hwords : request.numWords = NUMBER_OF_WORDS) (hpick : pick w.raffle.players word = some a) :
    ∃ m', Run (Step site) m
        (events ++ [.call (l.sends (.deliver id (fun _ => word) true)), .answer ()]) m' ∧
      RoundOver a m' := by
  obtain ⟨hcall, hanswer⟩ := step_deliver (l := l) hlock hpending hwords hpick
  refine ⟨⟨paidOut w id a, []⟩, ?_, roundOver_paidOut⟩
  rw [List.append_cons]
  exact .snoc (.snoc hrun hcall) hanswer

end FairnessLemmas

end AdvFoundry.Lottery
