import Mathlib.Algebra.Order.BigOperators.Group.List
import AdvFoundry.Evm.Recorder
import AdvFoundry.Lottery.Requests

/-!
# Entries, rounds and prizes

The record of a run of the raffle: which entries, with how much ETH, make up the
current round, which made up the round when it was closed by `performUpkeep`,
and which draws there were. A draw ends a round at the moment the winner is
paid, so what the winner enters from inside the payment is in the next round. A
prize that is refused takes the draw back.

`prizes_conserved` is the account of all of it: the ETH of the raffle is that of
the current round and of what was forced in, every entry ever accepted is in
exactly one draw or in the current round, and each draw paid all of its round to
one of its players.
-/

namespace AdvFoundry.Lottery

open Function

/-- An accepted entry with its `msg.value`. -/
structure Entry where
  player : Address
  value : Nat

/-- A draw: the entries of its round, the entries there were when the round was
closed, the `s_players` the winner was drawn from, the payment, and the ETH that
had been forced in. -/
structure Draw where
  entries : List Entry
  closed : List Entry
  players : List Address
  winner : Address
  prize : Nat
  forced : Nat

/-- The entries of the current round, those at the last `performUpkeep`, the ETH
forced in since the last draw, all accepted entries, and the draws. -/
structure History where
  round : List Entry
  closed : List Entry
  forced : Nat
  accepted : List Entry
  draws : List Draw

/-- What the raffle had before it got its code counts as forced in. -/
def History.empty (balance : Nat) : History := ⟨[], [], balance, [], []⟩

def history (site : Site) : Recorder (Msg site) World Payment History where
  onQuery _ start payment _ h := { h with
    round := []
    forced := 0
    draws := h.draws ++
      [{ entries := h.round
         closed := h.closed
         players := start.raffle.players
         winner := payment.dst
         prize := payment.amount
         forced := h.forced }] }
  onReturn m _ _ h :=
    match m.call with
    | .enterRaffle value => { h with
        round := h.round ++ [⟨m.sender, value⟩]
        accepted := h.accepted ++ [⟨m.sender, value⟩] }
    | .performUpkeep _ => { h with closed := h.round }
    | .force amount => { h with forced := h.forced + amount }
    | _ => h

/-- The ETH of entries. -/
def total (entries : List Entry) : Nat := (entries.map Entry.value).sum

/-- A draw among the players of the round as it was closed, which pays out the
ETH of the round. -/
structure Draw.Fair (d : Draw) : Prop where
  players_eq : d.players = d.entries.map Entry.player
  winner_mem : d.winner ∈ d.players
  prize_eq : d.prize = total d.entries + d.forced
  closed_eq : d.entries = d.closed

/-- The raffle's own requests: it waits while there is one, there is one at most,
and each asks for one word. -/
structure OwnRequests (this : Address) (w : World) : Prop where
  waits : ∀ id, w.coordinator.Outstanding this id →
    w.raffle.raffleState = .CALCULATING_WINNER
  unique : ∀ id id', w.coordinator.Outstanding this id → w.coordinator.Outstanding this id' →
    id = id'
  words : ∀ id request, w.coordinator.requests id = some ⟨this, request⟩ →
    request.numWords = NUMBER_OF_WORDS
  issued : ∀ id, w.coordinator.requests id ≠ none → w.coordinator.issued id = true

/-- The raffle and its record agree. `forcing` says whether ETH may be forced in. -/
structure Accounted (site : Site) (forcing : Prop) (p : World × History) : Prop where
  requests : OwnRequests site.this p.1
  players : p.1.raffle.players = p.2.round.map Entry.player
  fees : ∀ e ∈ p.2.round, p.1.raffle.entranceFee ≤ e.value
  balance : p.1.balance = total p.2.round + p.2.forced
  unforced : ¬ forcing → p.2.forced = 0
  closed : p.1.raffle.raffleState = .CALCULATING_WINNER → p.2.round = p.2.closed ∧ p.2.round ≠ []
  accepted : p.2.accepted = (p.2.draws.map Draw.entries).flatten ++ p.2.round
  fair : ∀ d ∈ p.2.draws, d.Fair

namespace PrizeLemmas

open RequestLemmas

variable {site : Site} {this sender : Address} {w w' : World} {h : History} {forcing : Prop}
  {request : RandomWordsRequest} {id : Nat}

/-! ## The raffle's own requests -/

/-- Fewer own requests in the same state of the raffle. -/
theorem ownRequests_mono (hw : OwnRequests this w)
    (hstate : w'.raffle.raffleState = w.raffle.raffleState)
    (hown : ∀ id request, w'.coordinator.requests id = some ⟨this, request⟩ →
      w.coordinator.requests id = some ⟨this, request⟩)
    (hissued : ∀ id, w'.coordinator.requests id ≠ none → w'.coordinator.issued id = true) :
    OwnRequests this w' := by
  have hout : ∀ id, w'.coordinator.Outstanding this id → w.coordinator.Outstanding this id :=
    fun id ⟨request, hid⟩ => ⟨request, hown id request hid⟩
  exact ⟨fun id hid => hstate ▸ hw.waits id (hout id hid),
    fun id id' hid hid' => hw.unique id id' (hout id hid) (hout id' hid'),
    fun id request hid => hw.words id request (hown id request hid), hissued⟩

/-- A draw removes the only request. -/
theorem ownRequests_drawn {winner : Address} (hw : OwnRequests this w)
    (hpending : w.coordinator.requests id = some ⟨this, request⟩) :
    OwnRequests this (drawn w id winner) := by
  have hnone : ∀ n, ¬ (drawn w id winner).coordinator.Outstanding this n := by
    intro n hn
    obtain ⟨r, hr⟩ := hn
    obtain ⟨hne, hold⟩ := VRFCoordinator.of_removeRequest hr
    exact hne (hw.unique n id ⟨r, hold⟩ ⟨request, hpending⟩)
  exact ⟨fun n hn => absurd hn (hnone n), fun n _ hn => absurd hn (hnone n),
    fun n r hr => absurd ⟨r, hr⟩ (hnone n), VRFCoordinator.issued_removeRequest hw.issued⟩

/-- An open raffle has no request, so its new one is the only one. -/
theorem ownRequests_add_own (hw : OwnRequests this w) (hopen : w.raffle.raffleState = .OPEN)
    (hwords : request.numWords = NUMBER_OF_WORDS) :
    OwnRequests this (({ w with raffle := { w.raffle with raffleState := .CALCULATING_WINNER } } :
      World).setCoordinator (w.coordinator.addRequest id ⟨this, request⟩)) := by
  have hidle : ∀ n r, w.coordinator.requests n ≠ some ⟨this, r⟩ := by
    intro n r hn
    have hcalc := hw.waits n ⟨r, hn⟩
    rw [hopen] at hcalc
    cases hcalc
  have honly : ∀ n r, (w.coordinator.addRequest id ⟨this, request⟩).requests n = some ⟨this, r⟩ →
      n = id ∧ r = request := by
    intro n r hn
    rw [VRFCoordinator.addRequest_requests] at hn
    split at hn
    · next heq =>
      cases hn
      exact ⟨heq, rfl⟩
    · exact absurd hn (hidle n r)
  refine ⟨fun _ _ => rfl, fun n n' hn hn' => ?_, fun n r hn => ?_,
    VRFCoordinator.issued_addRequest hw.issued⟩
  · obtain ⟨r, hn⟩ := hn
    obtain ⟨r', hn'⟩ := hn'
    rw [(honly n r hn).1, (honly n' r' hn').1]
  · rw [(honly n r hn).2]
    exact hwords

/-! ## The calls -/

abbrev Keeps (site : Site) (forcing : Prop)
    (o : Outcome RaffleError (World × History) Payment Unit Unit) : Prop :=
  o.Safe (Accounted site forcing) (fun _ => True) (fun _ => True) fun _ => Accounted site forcing

theorem total_append (entries : List Entry) (e : Entry) :
    total (entries ++ [e]) = total entries + e.value := by
  simp [total]

theorem keeps_enterRaffle {value : Nat} (hp : Accounted site forcing (w, h))
    (hw' : enterRaffle sender value w = .ok ((), w')) :
    Accounted site forcing (w', { h with
      round := h.round ++ [⟨sender, value⟩], accepted := h.accepted ++ [⟨sender, value⟩] }) := by
  obtain ⟨hfee, hopen, rfl⟩ := enterRaffle_ok hw'
  refine ⟨ownRequests_mono hp.requests rfl (fun _ _ hn => hn) hp.requests.issued, ?_, fun e he => ?_,
    ?_, hp.unforced, fun hcalc => ?_, ?_, hp.fair⟩
  · have hplayers : w.raffle.players = h.round.map Entry.player := hp.players
    simp [hplayers]
  · rcases List.mem_append.mp he with he | he
    · exact hp.fees e he
    · rw [List.mem_singleton.mp he]
      exact hfee
  · have hbalance := hp.balance
    simp only [total_append] at hbalance ⊢
    omega
  · exact absurd (hopen.symm.trans hcalc) (by decide)
  · have haccepted : h.accepted = (h.draws.map Draw.entries).flatten ++ h.round := hp.accepted
    simp [haccepted]

theorem keeps_performUpkeep {requestId : Option Nat} (hp : Accounted site forcing (w, h))
    (hw' : performUpkeep site requestId w = .ok ((), w')) :
    Accounted site forcing (w', { h with closed := h.round }) := by
  obtain ⟨hopen, hplayers, id, request, -, hwords, rfl⟩ := performUpkeep_ok hw'
  refine ⟨ownRequests_add_own hp.requests hopen hwords, hp.players, hp.fees, hp.balance, hp.unforced,
    fun _ => ⟨rfl, fun hnil => ?_⟩, hp.accepted, hp.fair⟩
  rw [hp.players, hnil] at hplayers
  exact hplayers rfl

/-- The raffle and its ETH stay as they are, and its requests at most go. -/
theorem accounted_coordinator {v : VRFCoordinator} (hp : Accounted site forcing (w, h))
    (hown : ∀ id request, v.requests id = some ⟨site.this, request⟩ →
      w.coordinator.requests id = some ⟨site.this, request⟩)
    (hissued : ∀ id, v.requests id ≠ none → v.issued id = true) :
    Accounted site forcing (w.setCoordinator v, h) :=
  ⟨ownRequests_mono hp.requests rfl hown hissued, hp.players, hp.fees, hp.balance, hp.unforced,
    hp.closed, hp.accepted, hp.fair⟩

theorem keeps_finish {charged : Bool} (hp : Accounted site forcing (w, h))
    (hw' : callVrf (VRFCoordinator.finish charged) w = .ok ((), w')) :
    Accounted site forcing (w', h) := by
  simp only [callVrf_ok, VRFCoordinator.finish_ok] at hw'
  obtain ⟨_, ⟨-, rfl⟩, rfl⟩ := hw'
  exact accounted_coordinator hp (fun _ _ hn => hn) hp.requests.issued

/-- The delivery, seen when the winner is paid: the round is over. -/
theorem accounted_drawn {winner : Address} (hp : Accounted site forcing (w, h))
    (hpending : w.coordinator.requests id = some ⟨site.this, request⟩)
    (hwinner : winner ∈ w.raffle.players) :
    Accounted site forcing (drawn w id winner, { h with
      round := []
      forced := 0
      draws := h.draws ++ [⟨h.round, h.closed, w.raffle.players, winner, w.balance, h.forced⟩] }) := by
  have hclosed := (hp.closed (hp.requests.waits id ⟨request, hpending⟩)).1
  refine ⟨ownRequests_drawn hp.requests hpending, rfl, fun e he => (by cases he), rfl, fun _ => rfl,
    fun hcalc => (by cases hcalc), ?_, fun d hd => ?_⟩
  · have haccepted : h.accepted = (h.draws.map Draw.entries).flatten ++ h.round := hp.accepted
    simp [haccepted]
  · rcases List.mem_append.mp hd with hd | hd
    · exact hp.fair d hd
    · rw [List.mem_singleton.mp hd]
      exact ⟨hp.players, hwinner, hp.balance, hclosed⟩

/-- A request of the raffle is delivered to a round with players. -/
theorem accounted_players (hp : Accounted site forcing (w, h))
    (hid : w.coordinator.Outstanding site.this id) : w.raffle.players ≠ [] := by
  have hround := (hp.closed (hp.requests.waits id hid)).2
  rw [hp.players]
  simpa using hround

theorem keeps_deliver {m : Msg site} {word : Nat → Nat} {charged : Bool}
    (hm : m.call = .deliver id word charged) (hp : Accounted site forcing (w, h)) :
    Keeps site forcing ((deliver site id word charged w).recorded (history site) m w h) := by
  -- a delivery writes nothing to the record when it returns
  have hreturn : ∀ w' h', (history site).onReturn m w w' h' = h' := by
    intro w' h'
    simp only [history, hm]
  have hfinish : ∀ w₁ h₁, Accounted site forcing (w₁, h₁) →
      Keeps site forcing (((Proc.tx (callVrf (VRFCoordinator.finish charged)) : RaffleProc Unit)
        w₁).recorded (history site) m w h₁) := by
    intro w₁ h₁ hp₁
    refine Outcome.safe_recorded_tx (fun w₂ hw₂ => ?_) fun _ => trivial
    rw [hreturn]
    exact keeps_finish hp₁ hw₂
  have hremoved : Accounted site forcing (w.setCoordinator (w.coordinator.removeRequest id), h) :=
    accounted_coordinator hp (fun _ _ hn => (VRFCoordinator.of_removeRequest hn).2)
      (VRFCoordinator.issued_removeRequest hp.requests.issued)
  rcases deliver_cases site id word charged w with ⟨e, hreverted⟩ |
    ⟨sender, request, -, -, hother⟩ | ⟨request, hlock, hpending⟩
  · rw [hreverted]
    trivial
  · rw [hother]
    exact hfinish _ _ hremoved
  · obtain ⟨winner, hwinner, hwaiting⟩ := deliver_own word charged hlock hpending
      (hp.requests.words id request hpending) (accounted_players hp ⟨request, hpending⟩)
    rw [hwaiting]
    refine ⟨accounted_drawn hp hpending hwinner, fun a p _ hp' => ?_⟩
    cases a with
    | some u => exact hfinish p.1 p.2 hp'
    | none => exact hfinish _ _ hremoved

end PrizeLemmas

open PrizeLemmas RequestLemmas

/-- Every call keeps the account, where only the allowed ones force ETH in. -/
theorem accounted_exec {site : Site} {forcing : Prop} (m : Msg site)
    (hforce : ∀ amount, m.call = .force amount → forcing) (p : World × History)
    (hp : Accounted site forcing p) :
    PrizeLemmas.Keeps site forcing (Machine.recordedExec Msg.exec (history site) m p) := by
  obtain ⟨w, h⟩ := p
  rcases m with ⟨sender, hthis, hcoordinator, call⟩
  cases call with
  | enterRaffle value =>
    exact Outcome.safe_recorded_tx (fun _ hw' => PrizeLemmas.keeps_enterRaffle hp hw') fun _ => trivial
  | performUpkeep id =>
    exact Outcome.safe_recorded_tx (fun _ hw' => PrizeLemmas.keeps_performUpkeep hp hw')
      fun _ => trivial
  | rawFulfillRandomWords words =>
    have hrefused : rawFulfillRandomWords site sender words w = .reverted _ :=
      Proc.tx_bind_error (Tx.revertIf_error.mpr ⟨hcoordinator, rfl⟩)
    show PrizeLemmas.Keeps site forcing
      ((rawFulfillRandomWords site sender words w).recorded (history site) _ w h)
    rw [hrefused]
    trivial
  | deliver id word charged => exact PrizeLemmas.keeps_deliver rfl hp
  | request request id =>
    refine Outcome.safe_recorded_tx (fun w' hw' => ?_) fun _ => trivial
    simp only [callVrf_ok, VRFCoordinator.requestRandomWords_ok] at hw'
    obtain ⟨_, ⟨-, n, -, hn, rfl⟩, rfl⟩ := hw'
    exact accounted_coordinator hp
      (fun _ _ => (VRFCoordinator.own_addRequest hthis hp.requests.issued hn).mp)
      (VRFCoordinator.issued_addRequest hp.requests.issued)
  | force amount =>
    show Accounted site forcing ({ w with balance := w.balance + amount },
      { h with forced := h.forced + amount })
    refine ⟨ownRequests_mono hp.requests rfl (fun _ _ hn => hn) hp.requests.issued, hp.players,
      hp.fees, ?_, fun hno => absurd (hforce amount rfl) hno, hp.closed, hp.accepted, hp.fair⟩
    have hbalance := hp.balance
    simp only at hbalance ⊢
    omega
  | wait seconds =>
    show Accounted site forcing ({ w with timestamp := w.timestamp + seconds }, h)
    exact ⟨ownRequests_mono hp.requests rfl (fun _ _ hn => hn) hp.requests.issued, hp.players,
      hp.fees, hp.balance, hp.unforced, hp.closed, hp.accepted, hp.fair⟩

theorem Accounted.fees_le {site : Site} {forcing : Prop} {w : World} {h : History}
    (hp : Accounted site forcing (w, h)) :
    w.raffle.players.length * w.raffle.entranceFee ≤ w.balance := by
  have hsum : ∀ entries : List Entry, (∀ e ∈ entries, w.raffle.entranceFee ≤ e.value) →
      entries.length * w.raffle.entranceFee ≤ total entries := by
    intro entries hentries
    have hle := List.card_nsmul_le_sum (entries.map Entry.value) w.raffle.entranceFee
      (List.forall_mem_map.mpr hentries)
    simpa [total] using hle
  have hround := hsum h.round hp.fees
  have hplayers : w.raffle.players = h.round.map Entry.player := hp.players
  have hbalance : w.balance = total h.round + h.forced := hp.balance
  rw [hplayers, List.length_map, hbalance]
  exact Nat.le_trans hround (Nat.le_add_right _ _)

/-! ## Every run -/

/-- In every state of every run, those inside a payment included, the raffle has
the ETH of the entries of the current round and what was forced in since the
last draw, and every entry paid the fee. While the raffle waits, the round is as
`performUpkeep` left it. The delivery of a request finds players, draws one of
them, and hands over all the ETH. Each draw so far was among the players of its
round, which had been closed, and paid out its ETH; and the accepted entries
are those of the draws, one after another, and of the current round. -/
theorem prizes_conserved {site : Site} {w₀ : World} {m : RaffleMachine}
    {events : List (Event (Msg site) Unit)} (h₀ : Deployed site w₀)
    (hrun : Run (Step site) ⟨w₀, []⟩ events m) :
    ∃ h stack,
      Run (Machine.Step (Machine.recordedExec Msg.exec (history site)))
        ⟨(w₀, History.empty w₀.balance), []⟩ events ⟨(m.world, h), stack⟩ ∧
      m.world.raffle.players.length * m.world.raffle.entranceFee ≤ m.world.balance ∧
      m.world.raffle.players = h.round.map Entry.player ∧
      m.world.balance = total h.round + h.forced ∧
      (w₀.balance = 0 → (∀ l, .call l ∈ events → ∀ amount, l.call ≠ .force amount) →
        m.world.balance = total h.round) ∧
      (m.world.raffle.raffleState = .CALCULATING_WINNER → h.round = h.closed) ∧
      (∀ id word charged, m.world.coordinator.Outstanding site.this id →
        m.world.coordinator.reentrancyLock = false →
        ∃ winner ∈ m.world.raffle.players, ∃ resume, deliver site id word charged m.world =
          .waiting ⟨winner, m.world.balance⟩ (RequestLemmas.drawn m.world id winner) resume) ∧
      (∀ d ∈ h.draws, d.players = d.entries.map Entry.player ∧ d.winner ∈ d.players ∧
        d.prize = total d.entries + d.forced ∧ d.entries = d.closed) ∧
      h.accepted = (h.draws.map Draw.entries).flatten ++ h.round := by
  obtain ⟨fee, interval, gasLane, subscription, gasLimit, hbuilt⟩ := h₀.built
  simp only [constructor, Result.bind_ok, Result.pure_ok] at hbuilt
  obtain ⟨_, -, hraffle⟩ := hbuilt
  let forcing : Prop := w₀.balance ≠ 0 ∨ ∃ l amount, .call l ∈ events ∧ l.call = .force amount
  have hstart : Accounted site forcing (w₀, History.empty w₀.balance) := by
    refine ⟨⟨fun id hid => absurd hid (h₀.no_request id), fun id _ hid => absurd hid (h₀.no_request id),
      fun id request hid => absurd ⟨request, hid⟩ (h₀.no_request id), h₀.issued⟩, ?_,
      fun e he => (by cases he), ?_, fun hno => ?_, fun hcalc => ?_, rfl, fun d hd => (by cases hd)⟩
    · rw [← hraffle]
      rfl
    · simp [History.empty, total]
    · exact not_not.mp fun hne => hno (.inl hne)
    · simp only [← hraffle] at hcalc
      cases hcalc
  have hrecords : Machine.Records (history site) (⟨w₀, []⟩ : RaffleMachine)
      ⟨(w₀, History.empty w₀.balance), []⟩ := ⟨rfl, .nil⟩
  obtain ⟨⟨⟨world, h⟩, stack⟩, hrecorded, hworld⟩ := Machine.recorded_run hrun hrecords
  have hworld : world = m.world := hworld.world
  subst hworld
  have hp : Accounted site forcing (m.world, h) :=
    (Machine.sound_run_of (fun l hl p => accounted_exec l
      (fun amount hamount => .inr ⟨l, amount, hl, hamount⟩) p) hrecorded
      (fun ev _ => by cases ev <;> trivial) (Machine.sound_idle hstart)).world
  refine ⟨h, stack, hrecorded, hp.fees_le, hp.players, hp.balance, fun hzero hnone => ?_,
    fun hcalc => (hp.closed hcalc).1, fun id word charged hid hlock => ?_, fun d hd => ?_, hp.accepted⟩
  · have hforced : h.forced = 0 := by
      refine hp.unforced fun hforcing => ?_
      rcases hforcing with hne | ⟨l, amount, hl, hamount⟩
      · exact hne hzero
      · exact hnone l hl amount hamount
    have hbalance : m.world.balance = total h.round + h.forced := hp.balance
    rw [hbalance, hforced, Nat.add_zero]
  · obtain ⟨request, hpending⟩ := hid
    obtain ⟨winner, hwinner, hwaiting⟩ := deliver_own word charged hlock hpending
      (hp.requests.words id request hpending) (accounted_players hp ⟨request, hpending⟩)
    exact ⟨winner, hwinner, _, hwaiting⟩
  · obtain ⟨hplayers, hwinner, hprize, hclosed⟩ := hp.fair d hd
    exact ⟨hplayers, hwinner, hprize, hclosed⟩

/-- The sole player `7` is drawn, enters again from inside the payment with more
than the fee, and keeps the prize. -/
def reenterEvents : List (Event (Msg sampleSite) Unit) :=
  drawEvents ++ [.call (playerCall (.enterRaffle 25)), .answer ()]

/-- The prize is gone and the new entry is there, with its ETH. -/
theorem prizes_conserved_reenter :
    ∃ (m : RaffleMachine) (h : History), Run (Step sampleSite) ⟨sampleWorld, []⟩ reenterEvents m ∧
      h.round.map Entry.player = [7] ∧ total h.round = 25 ∧
      h.accepted = (h.draws.map Draw.entries).flatten ++ h.round := by
  obtain ⟨m, hrun, hbalance, hplayers⟩ : ∃ m,
      Run (Step sampleSite) ⟨sampleWorld, []⟩ reenterEvents m ∧ m.world.balance = 25 ∧
        m.world.raffle.players = [7] :=
    ⟨_, Run.of_foldlM (fun _ _ _ h => h) (Option.some_get (by decide +kernel)).symm,
      by decide +kernel, by decide +kernel⟩
  obtain ⟨h, _, -, -, hround, -, hunforced, -, -, -, haccepted⟩ :=
    prizes_conserved sampleWorld_deployed hrun
  have htotal := hunforced rfl fun l hl amount => by
    simp only [reenterEvents, drawEvents, List.cons_append, List.nil_append, List.mem_cons,
      List.not_mem_nil, or_false, Event.call.injEq, reduceCtorEq] at hl
    rcases hl with rfl | rfl | rfl | rfl | rfl <;> simp [playerCall]
  exact ⟨m, h, hrun, hround ▸ hplayers, htotal ▸ hbalance, haccepted⟩

end AdvFoundry.Lottery
