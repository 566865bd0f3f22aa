import AdvFoundry.Evm.Ledger
import AdvFoundry.Funding.FundMe

/-!
# The ledger of FundMe and its ETH

`withdraw` clears the amounts of the accounts in `funders` only. That it clears
all of them rests on one invariant: whoever has an amount is in the list, as
often as it funded (`Matched`). The amounts sum to the ETH of the contract, less
what was forced in, at every moment an outsider can see, also while the owner is
being paid.

`ledger_matches_balance`: both in every state of every run, what a `withdraw` does
there, and what one that nobody funds into leaves behind.
-/

namespace AdvFoundry.Funding

open Function

/-- The list covers the mapping, and the ETH covers the amounts; `forcing` says
whether ETH may have been forced in. -/
structure Matched (forcing : Prop) (w : World) : Prop where
  listed : ∀ a, 0 < w.fundMe.addressToAmountFunded a → a ∈ w.fundMe.funders
  covered : ∑ a, w.fundMe.addressToAmountFunded a ≤ w.balance
  exact : ¬ forcing → ∑ a, w.fundMe.addressToAmountFunded a = w.balance

/-- Nothing is recorded and there is no ETH. -/
structure Emptied (w : World) : Prop where
  amounts : ∀ a, w.fundMe.addressToAmountFunded a = 0
  funders : w.fundMe.funders = []
  balance : w.balance = 0

/-- The calls that bring ETH in. -/
def Call.brings : Call → Prop
  | fund _ => True
  | fallback _ => True
  | receive _ => True
  | force _ => True
  | withdraw => False

/-- A step deeper than `depth` waiting calls that brings in no ETH: a call that
would, reverts. -/
structure InnerStep (this : Address) (depth : Nat) (m : FundMachine) (ev : Event (Msg this) Unit)
    (m' : FundMachine) : Prop where
  step : Step this m ev m'
  inside : depth < m'.stack.length
  no_funding : ∀ l, ev = .call l → l.call.brings → m'.world = m.world

namespace LedgerLemmas

variable {this sender : Address} {env : Env} {value : Nat} {w w' : World} {forcing : Prop}

/-! ## The functions -/

/-- The world after `fund`. -/
def fundedWorld (w : World) (sender : Address) (value : Nat) : World where
  fundMe := { w.fundMe with
    addressToAmountFunded := credit w.fundMe.addressToAmountFunded sender value
    funders := w.fundMe.funders ++ [sender] }
  balance := w.balance + value

theorem fund_ok (h : fund env sender value w = .ok ((), w')) : w' = fundedWorld w sender value := by
  simp only [fund, Tx.bind_ok, Tx.modify_ok, Tx.view_ok, Tx.revertIf_ok, Tx.tryModify_ok,
    Result.bind_ok, addU_ok, Result.pure_ok] at h
  obtain ⟨_, _, rfl, _, _, ⟨-, rfl⟩, _, _, ⟨-, rfl⟩, _, _, ⟨_, ⟨-, rfl⟩, rfl⟩, rfl⟩ := h
  rfl

/-- The world `withdraw` hands over: the listed amounts are cleared, the list is
empty and the ETH has left. -/
def sweptWorld (w : World) : World where
  fundMe := { w.fundMe with
    addressToAmountFunded := resetFunders w.fundMe.funders w.fundMe.addressToAmountFunded
    funders := [] }
  balance := 0

theorem withdraw_refused (h : sender ≠ w.fundMe.owner) :
    withdraw sender w = .reverted (.error .notOwner) :=
  Proc.tx_bind_error (Tx.bind_error.mpr (.inr ⟨w, w, rfl, Tx.revertIf_error.mpr ⟨h, rfl⟩⟩))

/-- The owner is paid all ETH; when the payment fails, so does the call. -/
theorem withdraw_owner (h : sender = w.fundMe.owner) :
    ∃ resume, withdraw sender w = .waiting ⟨sender, w.balance⟩ (sweptWorld w) resume ∧
      (∀ s, resume (some ()) s = .returned () s) ∧
      ∀ s, resume none s = .reverted (.error (.reason "Call failed")) := by
  have hpass : onlyOwner sender w = .ok ((), w) :=
    Tx.bind_ok.mpr ⟨w, w, rfl, Tx.revertIf_ok.mpr ⟨fun hne => hne h, rfl⟩⟩
  refine ⟨_, (Proc.tx_bind_ok hpass).trans rfl, fun s => rfl, fun s => rfl⟩

theorem withdraw_cases (sender : Address) (w : World) :
    withdraw sender w = .reverted (.error .notOwner) ∨
    ∃ resume, sender = w.fundMe.owner ∧
      withdraw sender w = .waiting ⟨sender, w.balance⟩ (sweptWorld w) resume ∧
      (∀ s, resume (some ()) s = .returned () s) ∧
      ∀ s, resume none s = .reverted (.error (.reason "Call failed")) := by
  by_cases h : sender = w.fundMe.owner
  · obtain ⟨resume, hresume⟩ := withdraw_owner h
    exact .inr ⟨resume, h, hresume⟩
  · exact .inl (withdraw_refused h)

/-! ## The reset loop -/

/-- The loop clears the listed accounts, however often they are listed, and no
other. -/
theorem resetFunders_apply (funders : List Address) (amounts : Address → Nat) (a : Address) :
    resetFunders funders amounts a = if a ∈ funders then 0 else amounts a := by
  unfold resetFunders
  induction funders generalizing amounts with
  | nil => simp
  | cons funder rest ih =>
    rw [List.foldl_cons, ih]
    rcases eq_or_ne a funder with rfl | ha
    · simp
    · simp [ha]

/-- Where the list covers the mapping, the loop clears everything. -/
theorem emptied_swept (hw : Matched forcing w) : Emptied (sweptWorld w) := by
  refine ⟨fun a => ?_, rfl, rfl⟩
  show resetFunders w.fundMe.funders w.fundMe.addressToAmountFunded a = 0
  rw [resetFunders_apply]
  split
  · rfl
  · next hnot =>
    have hlisted := hw.listed a
    by_contra hne
    exact hnot (hlisted (Nat.pos_of_ne_zero hne))

theorem matched_of_emptied (forcing : Prop) (hw : Emptied w) : Matched forcing w := by
  have hsum : ∑ a, w.fundMe.addressToAmountFunded a = 0 :=
    Finset.sum_eq_zero fun a _ => hw.amounts a
  refine ⟨fun a ha => ?_, ?_, fun _ => ?_⟩
  · rw [hw.amounts a] at ha
    cases ha
  · rw [hsum]
    exact Nat.zero_le _
  · rw [hsum, hw.balance]

theorem matched_funded (hw : Matched forcing w) : Matched forcing (fundedWorld w sender value) := by
  have hsum := sum_credit w.fundMe.addressToAmountFunded sender value
  refine ⟨fun a ha => ?_, ?_, fun hno => ?_⟩
  · by_cases hsender : a = sender
    · simp [fundedWorld, hsender]
    · simp only [fundedWorld, credit_of_ne hsender] at ha ⊢
      exact List.mem_append_left _ (hw.listed a ha)
  · have hcovered := hw.covered
    simp only [fundedWorld, hsum]
    omega
  · have hexact := hw.exact hno
    simp only [fundedWorld, hsum]
    omega

/-! ## Every call -/

abbrev Keeps (I : World → Prop) (o : Outcome FundError World Payment Unit Unit) : Prop :=
  o.Safe I (fun _ => True) (fun _ => True) fun _ => I

/-- What a sweep keeps, `withdraw` keeps, whatever happens during the payment. -/
theorem keeps_withdraw {I : World → Prop} (hI : I (sweptWorld w)) : Keeps I (withdraw sender w) := by
  rcases withdraw_cases sender w with hrefused | ⟨resume, -, hwaiting, hsome, hnone⟩
  · rw [hrefused]
    trivial
  · rw [hwaiting]
    refine ⟨hI, fun a s _ hs => ?_⟩
    cases a with
    | some u =>
      rw [hsome]
      exact hs
    | none =>
      rw [hnone]
      trivial

theorem keeps_fund (hw : Matched forcing w) :
    Keeps (Matched forcing) ((Proc.tx (fund env sender value) : FundProc Unit) w) := by
  refine Proc.safe_tx (fun _ w' h => ?_) fun _ _ => trivial
  rw [fund_ok h]
  exact matched_funded hw

theorem matched_exec (m : Msg this) (hforce : ∀ amount, m.call = .force amount → forcing)
    (w : World) (hw : Matched forcing w) : Keeps (Matched forcing) (m.exec w) := by
  rcases m with ⟨sender, hne, env, call⟩
  cases call with
  | fund value | fallback value | receive value => exact keeps_fund hw
  | withdraw => exact keeps_withdraw (matched_of_emptied _ (emptied_swept hw))
  | force amount =>
    have hcovered := hw.covered
    exact ⟨hw.listed, Nat.le_trans hcovered (Nat.le_add_right _ _),
      fun hno => absurd (hforce amount rfl) hno⟩

/-! ## Whole runs -/

/-- ETH is forced in before the contract is there or by an event. -/
theorem matched_run {w₀ : World} {m : FundMachine} {events : List (Event (Msg this) Unit)}
    (h₀ : Deployed w₀) (hrun : Run (Step this) ⟨w₀, []⟩ events m) :
    Matched (w₀.balance ≠ 0 ∨ ∃ l amount, .call l ∈ events ∧ l.call = .force amount) m.world := by
  obtain ⟨sender, priceFeed, hbuilt⟩ := h₀
  have hsum : ∑ a, w₀.fundMe.addressToAmountFunded a = 0 := by
    rw [hbuilt]
    exact Finset.sum_eq_zero fun _ _ => rfl
  refine (Machine.sound_run_of (fun l hl w => matched_exec l
    (fun amount hamount => .inr ⟨l, amount, hl, hamount⟩) w) hrun
    (fun ev _ => by cases ev <;> trivial) (Machine.sound_idle ?_)).world
  refine ⟨fun a ha => ?_, ?_, fun hno => ?_⟩
  · rw [hbuilt] at ha
    exact absurd ha (Nat.lt_irrefl 0)
  · rw [hsum]
    exact Nat.zero_le _
  · rw [hsum]
    exact (not_not.mp fun hne => hno (.inl hne)).symm

/-! ## Inside a payment -/

/-- A call that brings in ETH keeps control. -/
theorem brings_stack {l : Msg this} {m m' : FundMachine} (hl : l.call.brings)
    (h : Step this m (.call l) m') : m'.stack = m.stack := by
  obtain ⟨x, hx⟩ : ∃ x : FundTx Unit, l.exec = Proc.tx x := by
    rcases l with ⟨sender, hne, env, call⟩
    cases call with
    | fund value | fallback value | receive value => exact ⟨fund env sender value, rfl⟩
    | force amount => exact ⟨Tx.modify fun w => w.setBalance (w.balance + amount), rfl⟩
    | withdraw => exact hl.elim
  cases h
  rw [hx]
  unfold Proc.tx
  cases x m.world with
  | ok p => rfl
  | error e => rfl

/-- The calls above the waiting call `f` see nothing but emptied worlds. -/
def EmptiedAbove (f : Frame FundError World Payment Unit)
    (base : List (Frame FundError World Payment Unit)) (m : FundMachine) : Prop :=
  ∃ n : FundMachine, m = n.under (f :: base) ∧ n.Sound Emptied (fun _ => True) fun _ => True

/-- That stays so while a `withdraw` waits for its payment and no ETH comes in. -/
theorem emptied_step {base : List (Frame FundError World Payment Unit)}
    {f : Frame FundError World Payment Unit} {m m' : FundMachine} {ev : Event (Msg this) Unit}
    (hsome : ∀ s, f.resume (some ()) s = .returned () s)
    (hnone : ∀ s, f.resume none s = .reverted (.error (.reason "Call failed")))
    (h : InnerStep this base.length m ev m') (hm : EmptiedAbove f base m) :
    EmptiedAbove f base m' := by
  obtain ⟨n, rfl, hn⟩ := hm
  have hinside := h.inside
  by_cases hev : n.stack ≠ [] ∨ ∃ l, ev = .call l
  · obtain ⟨n', hstep, rfl⟩ := Machine.step_under hev h.step
    refine ⟨n', rfl, ?_⟩
    by_cases hl : ∃ l, ev = .call l ∧ l.call.brings
    · obtain ⟨l, rfl, hbrings⟩ := hl
      have hworld : n'.world = n.world := h.no_funding l rfl hbrings
      have hstack := brings_stack hbrings hstep
      exact ⟨hworld ▸ hn.world, hstack ▸ hn.stack⟩
    · refine Machine.sound_next (fun l hcall => ?_) hn (by cases ev <;> trivial) hstep
      rcases l with ⟨sender, hne, env, call⟩
      cases call with
      | fund value | fallback value | receive value | force amount =>
        exact absurd ⟨_, hcall, trivial⟩ hl
      | withdraw => exact keeps_withdraw (emptied_swept (matched_of_emptied False hn.world))
  · -- the payment itself is answered, and the call is over
    exfalso
    rw [not_or, not_not] at hev
    obtain ⟨hstack, hcall⟩ := hev
    obtain ⟨world, stack⟩ := n
    cases hstack
    have hstep := h.step
    cases ev with
    | call l => exact hcall ⟨l, rfl⟩
    | answer a =>
      cases hstep
      simp [Machine.under, hsome, Machine.settle] at hinside
    | fail =>
      cases hstep
      simp [hnone, Machine.settle] at hinside

/-- A `withdraw` by anybody but the owner changes nothing, and one by the owner sweeps
and waits for the payment of all ETH. -/
theorem withdraw_step {l : Msg this} {m m₁ : FundMachine} (hl : l.call = .withdraw)
    (h : Step this m (.call l) m₁) :
    (l.sender ≠ m.world.fundMe.owner ∧ m₁ = m) ∨
    ∃ f, l.sender = m.world.fundMe.owner ∧ m₁ = ⟨sweptWorld m.world, f :: m.stack⟩ ∧
      f.query = ⟨m.world.fundMe.owner, m.world.balance⟩ ∧
      (∀ s, f.resume (some ()) s = .returned () s) ∧
      ∀ s, f.resume none s = .reverted (.error (.reason "Call failed")) := by
  have hexec : l.exec = withdraw l.sender := by
    unfold Msg.exec
    rw [hl]
  cases h
  rw [hexec]
  by_cases howner : l.sender = m.world.fundMe.owner
  · obtain ⟨resume, hwaiting, hsome, hnone⟩ := withdraw_owner howner
    rw [hwaiting]
    exact .inr ⟨⟨m.world, sweptWorld m.world, ⟨l.sender, m.world.balance⟩, resume⟩, howner, rfl,
      by rw [howner], hsome, hnone⟩
  · rw [withdraw_refused howner]
    exact .inl ⟨howner, rfl⟩

end LedgerLemmas

open LedgerLemmas

/-- In every state of every run, those inside a payment included: whoever has an
amount is listed, the amounts sum to at most the ETH of the contract, and to
exactly that when none was forced in. A `withdraw` by anybody but the owner changes
nothing; one by the owner hands over all the ETH there is to the owner, returns when
that is accepted and reverts when it is refused. If no ETH comes in before it returns,
it leaves no amount, no funder and no ETH. -/
theorem ledger_matches_balance {this : Address} {w₀ : World} {m : FundMachine}
    {events : List (Event (Msg this) Unit)} (h₀ : Deployed w₀)
    (hrun : Run (Step this) ⟨w₀, []⟩ events m) :
    (∀ a, 0 < m.world.fundMe.addressToAmountFunded a → a ∈ m.world.fundMe.funders) ∧
    ∑ a, m.world.fundMe.addressToAmountFunded a ≤ m.world.balance ∧
    (w₀.balance = 0 → (∀ l, .call l ∈ events → ∀ amount, l.call ≠ .force amount) →
      ∑ a, m.world.fundMe.addressToAmountFunded a = m.world.balance) ∧
    (∀ (l : Msg this) (m₁ : FundMachine), l.call = .withdraw → Step this m (.call l) m₁ →
      (l.sender ≠ m.world.fundMe.owner ∧ m₁ = m) ∨
      (l.sender = m.world.fundMe.owner ∧ m₁.world.balance = 0 ∧
        ∃ f, m₁.stack = f :: m.stack ∧ f.query = ⟨m.world.fundMe.owner, m.world.balance⟩ ∧
          (∀ s, f.resume (some ()) s = .returned () s) ∧
          ∀ s, f.resume none s = .reverted (.error (.reason "Call failed")))) ∧
    ∀ (l : Msg this) (m₁ m₂ m₃ : FundMachine) (inner : List (Event (Msg this) Unit)),
      l.call = .withdraw → Step this m (.call l) m₁ → m.stack.length < m₁.stack.length →
      Run (InnerStep this m.stack.length) m₁ inner m₂ →
      m₂.stack.length = m.stack.length + 1 → Step this m₂ (.answer ()) m₃ →
      l.sender = m.world.fundMe.owner ∧
      (∃ f, m₁.stack = f :: m.stack ∧ f.query = ⟨m.world.fundMe.owner, m.world.balance⟩) ∧
      m₃.stack = m.stack ∧ (∀ a, m₃.world.fundMe.addressToAmountFunded a = 0) ∧
      m₃.world.fundMe.funders = [] ∧ m₃.world.balance = 0 := by
  have hw := matched_run h₀ hrun
  refine ⟨hw.listed, hw.covered, fun hzero hnone => hw.exact ?_, fun l m₁ hl hcall => ?_, ?_⟩
  · rintro (hne | ⟨l, amount, hl, hamount⟩)
    · exact hne hzero
    · exact hnone l hl amount hamount
  · rcases withdraw_step hl hcall with hrefused | ⟨f, howner, rfl, hquery, hsome, hnone⟩
    · exact .inl hrefused
    · exact .inr ⟨howner, rfl, f, rfl, hquery, hsome, hnone⟩
  · intro l m₁ m₂ m₃ inner hl hcall hwaits hinner hdepth hanswer
    rcases withdraw_step hl hcall with ⟨-, rfl⟩ | ⟨f, howner, rfl, hquery, hsome, hnone⟩
    · exact absurd hwaits (Nat.lt_irrefl _)
    have habove : EmptiedAbove f m.stack ⟨sweptWorld m.world, f :: m.stack⟩ :=
      ⟨⟨sweptWorld m.world, []⟩, rfl, Machine.sound_idle (emptied_swept hw)⟩
    obtain ⟨n, rfl, hn⟩ := Run.invariant (C := fun _ => True)
      (fun _ _ _ _ hm hst => emptied_step hsome hnone hst hm) hinner (fun _ _ => trivial) habove
    -- only the `withdraw` itself is still waiting, so the answer is its own
    obtain ⟨world, stack⟩ := n
    have hnil : stack = [] := by
      simp only [Machine.under, List.length_append, List.length_cons] at hdepth
      exact List.eq_nil_of_length_eq_zero (by omega)
    subst hnil
    have hworld : Emptied world := hn.world
    have hend : m₃ = ⟨world, m.stack⟩ := by
      cases hanswer
      show Machine.settle f.start m.stack (f.resume (some ()) world) = _
      rw [hsome]
      rfl
    rw [hend]
    exact ⟨howner, ⟨f, rfl, hquery⟩, rfl, hworld.amounts, hworld.funders, hworld.balance⟩

/-- A block in which the feed at `11` answers twenty-five hundred dollars. -/
def sampleEnv : Env where
  timestamp := 1000
  latestRoundData := fun feed =>
    if feed = 11 then some ⟨1, ⟨2500 * 10 ^ 8, by decide, by decide⟩, 1000, 1000, 1⟩ else none
  no_feed_at_zero := if_neg (by decide)

/-- The contract at `1`, deployed by the account `18`. -/
def sampleWorld : World := ⟨constructor 18 11, 0⟩

/-- The account `17` funds one ETH twice, the second time without data. -/
def fundingEvents : List (Event (Msg 1) Unit) :=
  [.call ⟨17, by decide, sampleEnv, .fund (10 ^ 18)⟩,
   .call ⟨17, by decide, sampleEnv, .receive (10 ^ 18)⟩]

def ownerWithdraws : Msg 1 := ⟨18, by decide, sampleEnv, .withdraw⟩

/-- The machine after these, and while the owner is being paid. -/
def fundedMachine : FundMachine :=
  (fundingEvents.foldlM (Machine.next Msg.exec) ⟨sampleWorld, []⟩).get (by decide +kernel)

def payingMachine : FundMachine :=
  (fundedMachine.next Msg.exec (.call ownerWithdraws)).get (by decide +kernel)

/-- The owner takes both, and the account listed twice has no amount left. -/
theorem ledger_matches_balance_withdrawn :
    Run (Step 1) ⟨sampleWorld, []⟩ fundingEvents fundedMachine ∧
      fundedMachine.world.balance = 2 * 10 ^ 18 ∧
      Step 1 fundedMachine (.call ownerWithdraws) payingMachine ∧
      ∃ m, Step 1 payingMachine (.answer ()) m ∧
        m.world.fundMe.addressToAmountFunded 17 = 0 ∧ m.world.balance = 0 := by
  have hrun : Run (Step 1) ⟨sampleWorld, []⟩ fundingEvents fundedMachine :=
    Run.of_foldlM (fun _ _ _ h => h) (Option.some_get _).symm
  have hcall : Step 1 fundedMachine (.call ownerWithdraws) payingMachine :=
    (Option.some_get _).symm
  have hanswer : Step 1 payingMachine (.answer ()) _ := (Option.some_get (by decide +kernel)).symm
  obtain ⟨-, -, -, -, hsweep⟩ := ledger_matches_balance ⟨18, 11, rfl⟩ hrun
  obtain ⟨-, -, -, hamounts, -, hbalance⟩ := hsweep ownerWithdraws _ _ _ [] rfl hcall
    (by decide +kernel) (.nil _) (by decide +kernel) hanswer
  exact ⟨hrun, by decide +kernel, hcall, _, hanswer, hamounts 17, hbalance⟩

end AdvFoundry.Funding
