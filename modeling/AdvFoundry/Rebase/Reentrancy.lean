import AdvFoundry.Evm.Recorder
import AdvFoundry.Rebase.Solvency

/-!
# Redemptions that re-enter

`reedem` burns first and pays last. Whoever gets the ETH may call the vault and
the token again before the payment is over, at any depth, and may catch what
fails inside or revert with it. The record of a run has one entry for each
redemption that was not taken back, with what its caller saw when the call
began, what was burned and what was paid. The three are the same in every entry,
and the entries account for all ETH the vault paid (`redemptions_exact`).
-/

namespace AdvFoundry.Rebase

open Function

/-- A redemption that began in `w` and waits for its payment: all that the redeemer saw
is burned, and nobody else's tokens are; as much ETH has left the vault; and the call
returns when the payment is answered and reverts when it is refused. -/
structure PaysOut (w : World) (redeemer : Address) (payment : Payment) (handed : World)
    (resume : Option Unit → World → Outcome VaultError World Payment Unit Unit) : Prop where
  to_redeemer : payment.dst = redeemer
  paid_shown : payment.amount = w.token.visible w.timestamp redeemer
  burned_all : handed.token.visible handed.timestamp redeemer = 0
  burned_only : handed.liabilities + payment.amount = w.liabilities
  left : handed.balance + payment.amount = w.balance
  answered : ∀ w', resume (some ()) w' = .returned () w'
  refused : ∀ w', resume none w' = .reverted (.error .burnFailed)

/-- A redemption: what the redeemer saw when the call began, what was burned of
the redeemer's balance and of all balances when control was handed over, and the
payment. -/
structure Redemption where
  redeemer : Address
  shown : Nat
  burned : Nat
  burnedOfAll : Nat
  payment : Payment

/-- Only `reedem` hands over control, and after the payment it does nothing more. -/
def redemptions (this : Address) : Recorder (Msg this) World Payment (List Redemption) where
  onQuery m start payment handed log := log ++
    [{ redeemer := m.sender
       shown := start.token.visible start.timestamp m.sender
       burned := start.token.visible start.timestamp m.sender -
         handed.token.visible handed.timestamp m.sender
       burnedOfAll := start.liabilities - handed.liabilities
       payment := payment }]
  onReturn _ _ _ log := log

/-- The redeemer, and nobody else, is paid what was burned, all of which the
redeemer owned. -/
structure Redemption.Fair (r : Redemption) : Prop where
  to_redeemer : r.payment.dst = r.redeemer
  burned_shown : r.burned = r.shown
  burned_only : r.burnedOfAll = r.shown
  paid_shown : r.payment.amount = r.shown

/-- The ETH paid out in the redemptions on record. -/
def totalPaid (log : List Redemption) : Nat := (log.map fun r => r.payment.amount).sum

/-- The tokens burned in the redemptions on record. -/
def totalBurned (log : List Redemption) : Nat := (log.map fun r => r.burned).sum

/-- The books, and a record that accounts for every payment. -/
structure OnRecord (this : Address) (p : World × List Redemption) : Prop where
  books : Books this p.1
  paid : p.1.paid = totalPaid p.2
  fair : ∀ r ∈ p.2, r.Fair

namespace ReentrancyLemmas

open SolvencyLemmas AccountingLemmas

variable {this : Address} {w w' : World} {log : List Redemption}

theorem totalPaid_append (r : Redemption) :
    totalPaid (log ++ [r]) = totalPaid log + r.payment.amount := by
  simp [totalPaid]

/-- In fair redemptions as much is paid as burned. -/
theorem totalPaid_eq_totalBurned (h : ∀ r ∈ log, r.Fair) : totalPaid log = totalBurned log := by
  unfold totalPaid totalBurned
  congr 1
  refine List.map_congr_left fun r hr => ?_
  rw [(h r hr).paid_shown, (h r hr).burned_shown]

/-- Calls that keep control pay nothing. -/
theorem onRecord_tx {x : VaultTx Unit} {m : Msg this} {start : World}
    (hkeeps : Keeps this ((Proc.tx x : VaultProc Unit) w)) (hp : OnRecord this (w, log))
    (hpaid : ∀ w', x w = .ok ((), w') → w'.paid = w.paid) :
    (((Proc.tx x : VaultProc Unit) w).recorded (redemptions this) m start log).Safe
      (OnRecord this) (fun _ => True) (fun _ => True) fun _ => OnRecord this := by
  refine Outcome.safe_recorded_tx (fun w' h => ?_) fun _ => trivial
  have hbooks : Books this w' := by
    simpa only [Keeps, Proc.tx, h, Outcome.Safe] using hkeeps
  exact ⟨hbooks, (hpaid w' h).trans hp.paid, hp.fair⟩

/-- Nothing is left of what `reedem` burns. -/
theorem burn_all {sender : Address} {s' : RebaseToken}
    (hburn : RebaseToken.burn ⟨this, w.timestamp⟩ sender
      (w.token.visible w.timestamp sender) w.token = .ok ((), s')) :
    s'.visible w.timestamp sender = 0 := by
  have hexact := (burn_exact hburn).visible_eq sender
  rw [if_pos rfl, RebaseToken.explicitAmount, ite_self, Nat.add_zero] at hexact
  exact Nat.add_eq_right.mp hexact

/-- A redemption reverts, for lack of ETH only when the vault has less than is due, or
pays out. -/
theorem reedem_paysOut (this sender : Address) (w : World) :
    (∃ e, reedem this sender w = .reverted e ∧
      (e = .error .burnFailed → w.balance < w.token.visible w.timestamp sender)) ∨
    ∃ payment handed resume, reedem this sender w = .waiting payment handed resume ∧
      PaysOut w sender payment handed resume := by
  rcases reedem_cases this sender w with hreverted | ⟨s', hburn, hfunds, hwaiting⟩
  · exact .inl hreverted
  · have hgone := burn_all hburn
    refine .inr ⟨_, _, _, hwaiting, rfl, rfl, hgone, ?_, ?_, fun _ => rfl, fun _ => rfl⟩
    · rw [payout_liabilities]
      exact burn_visible hburn
    · exact Nat.sub_add_cancel hfunds

/-- The entry of a redemption. -/
theorem fair_payout {m : Msg this} {s' : RebaseToken}
    (hburn : RebaseToken.burn ⟨this, w.timestamp⟩ m.sender
      (w.token.visible w.timestamp m.sender) w.token = .ok ((), s')) :
    Redemption.Fair
      { redeemer := m.sender
        shown := w.token.visible w.timestamp m.sender
        burned := w.token.visible w.timestamp m.sender - s'.visible w.timestamp m.sender
        burnedOfAll := w.liabilities -
          (payout w s' (w.token.visible w.timestamp m.sender)).liabilities
        payment := ⟨m.sender, w.token.visible w.timestamp m.sender⟩ } := by
  have hgone := burn_all hburn
  have hsum := burn_visible hburn
  refine ⟨rfl, ?_, ?_, rfl⟩
  · rw [hgone]
    rfl
  · rw [payout_liabilities]
    simp only
    omega

theorem onRecord_reedem {m : Msg this} (hp : OnRecord this (w, log)) :
    ((reedem this m.sender w).recorded (redemptions this) m w log).Safe
      (OnRecord this) (fun _ => True) (fun _ => True) fun _ => OnRecord this := by
  rcases reedem_cases this m.sender w with ⟨e, hreverted, -⟩ | ⟨s', hburn, hfunds, hwaiting⟩
  · rw [hreverted]
    trivial
  · -- the entry is made at the hand-over, when the tokens are burned already
    rw [hwaiting]
    refine ⟨⟨?_, ?_, ?_⟩, fun a p _ hp' => ?_⟩
    · exact books_paid hp.books (preserves_minters_burn _ _ _ hburn) (burn_visible hburn) hfunds
    · show w.paid + _ = totalPaid (log ++ [_])
      rw [totalPaid_append, hp.paid]
    · intro r hr
      rcases List.mem_append.mp hr with hr | hr
      · exact hp.fair r hr
      · rw [List.mem_singleton.mp hr]
        exact fair_payout hburn
    · cases a with
      | some u => exact hp'
      | none => trivial

theorem paid_setToken {α : Type} {x : Tx RebaseError RebaseToken α} {a : α}
    (h : callToken x w = .ok (a, w')) : w'.paid = w.paid := by
  obtain ⟨_, -, rfl⟩ := callToken_ok.mp h
  rfl

/-- Every call keeps the record true. -/
theorem onRecord_exec (m : Msg this) (p : World × List Redemption) (hp : OnRecord this p) :
    (Machine.recordedExec Msg.exec (redemptions this) m p).Safe (OnRecord this) (fun _ => True)
      (fun _ => True) fun _ => OnRecord this := by
  obtain ⟨w, log⟩ := p
  have hkeeps := keeps_exec m hp.books
  rcases m with ⟨sender, hsender, call⟩
  cases call with
  | deposit value =>
    refine onRecord_tx hkeeps hp fun w' h => ?_
    simp only [deposit, Tx.bind_ok, Tx.modify_ok, Tx.revertIf_ok, Tx.get_ok] at h
    obtain ⟨_, _, rfl, _, _, ⟨-, rfl⟩, _, _, ⟨rfl, rfl⟩, hmint⟩ := h
    have hpaid := paid_setToken hmint
    exact hpaid
  | reedem => exact onRecord_reedem (m := ⟨sender, hsender, .reedem⟩) hp
  | receive value =>
    refine onRecord_tx (x := Rebase.receive value) hkeeps hp fun w' h => ?_
    rw [Tx.modify_ok.mp h]
  | token op hgrant =>
    refine onRecord_tx hkeeps hp fun w' h => ?_
    simp only [userCall, Tx.bind_ok, Tx.get_ok] at h
    obtain ⟨_, _, ⟨rfl, rfl⟩, hop⟩ := h
    exact paid_setToken hop
  | wait seconds =>
    refine onRecord_tx (x := Rebase.wait seconds) hkeeps hp fun w' h => ?_
    rw [Tx.modify_ok.mp h]

end ReentrancyLemmas

open ReentrancyLemmas

/-! ## Every run -/

/-- In every state of every run, however deep the calls are nested: the vault's
ETH is what was deposited and what it received, less what it paid in the
redemptions on record. In each of them the redeemer was paid what the call
burned, which is all the redeemer saw when the call began, and nobody else's
tokens were burned. So no more ETH was paid than tokens were burned. And whoever
calls `reedem` in such a state, the call reverts or pays out. -/
theorem redemptions_exact {this : Address} {w₀ : World} {m : VaultMachine}
    {events : List (Event (Msg this) Unit)} (h₀ : Deployed this w₀)
    (hrun : Run (Step this) ⟨w₀, []⟩ events m) :
    ∃ log stack,
      Run (Machine.Step (Machine.recordedExec Msg.exec (redemptions this))) ⟨(w₀, []), []⟩ events
        ⟨(m.world, log), stack⟩ ∧
      m.world.balance + totalPaid log = m.world.deposited + m.world.plain ∧
      (∀ r ∈ log, r.payment.dst = r.redeemer ∧ r.payment.amount = r.burned ∧
        r.burned = r.shown ∧ r.burnedOfAll = r.burned) ∧
      totalPaid log = totalBurned log ∧
      m.world.liabilities + totalBurned log = m.world.deposited + m.world.accrued ∧
      ∀ sender (hsender : sender ≠ this),
        (∃ e, Msg.exec ⟨sender, hsender, .reedem⟩ m.world = .reverted e ∧
          (e = .error .burnFailed →
            m.world.balance < m.world.token.visible m.world.timestamp sender)) ∨
        ∃ payment handed resume,
          Msg.exec ⟨sender, hsender, .reedem⟩ m.world = .waiting payment handed resume ∧
          PaysOut m.world sender payment handed resume := by
  have hstart : Machine.Records (redemptions this) (⟨w₀, []⟩ : VaultMachine) ⟨(w₀, []), []⟩ :=
    ⟨rfl, .nil⟩
  obtain ⟨⟨⟨world, log⟩, stack⟩, hrecorded, hrecords⟩ := Machine.recorded_run hrun hstart
  have hworld : world = m.world := hrecords.world
  subst hworld
  have hrecord : OnRecord this (m.world, log) :=
    (Machine.sound_run onRecord_exec hrecorded (fun ev _ => by cases ev <;> trivial)
      (Machine.sound_idle ⟨h₀.books, h₀.no_payment, fun r hr => by cases hr⟩)).world
  have hsame := totalPaid_eq_totalBurned hrecord.fair
  refine ⟨log, stack, hrecorded, ?_, fun r hr => ?_, hsame, ?_,
    fun sender _ => reedem_paysOut this sender m.world⟩
  · rw [← hrecord.paid]
    exact hrecord.books.assets
  · obtain ⟨hdst, hburned, honly, hpaid⟩ := hrecord.fair r hr
    exact ⟨hdst, hpaid.trans hburned.symm, hburned, honly.trans hburned.symm⟩
  · rw [← hsame, ← hrecord.paid]
    exact hrecord.books.owed

/-- Inside the payment of its first redemption the account `11` deposits again and
redeems that too. -/
def nestedEvents : List (Event (Msg 1) Unit) :=
  [.call ⟨11, by decide, .deposit (10 ^ 18)⟩, .call ⟨11, by decide, .reedem⟩,
    .call ⟨11, by decide, .deposit (3 * 10 ^ 17)⟩, .call ⟨11, by decide, .reedem⟩, .answer (), .answer ()]

/-- Both redemptions are paid, each with what was deposited for it. -/
theorem redemptions_exact_nested :
    ∃ m log, Run (Step 1) ⟨sampleWorld 0, []⟩ nestedEvents m ∧ m.world.balance = 0 ∧
      totalPaid log = 13 * 10 ^ 17 ∧ totalBurned log = 13 * 10 ^ 17 := by
  obtain ⟨m, hrun, hbalance, hdeposited, hplain⟩ :
      ∃ m, Run (Step 1) ⟨sampleWorld 0, []⟩ nestedEvents m ∧ m.world.balance = 0 ∧
        m.world.deposited = 13 * 10 ^ 17 ∧ m.world.plain = 0 :=
    ⟨_, Run.of_foldlM (fun _ _ _ h => h) (Option.some_get (by decide +kernel)).symm,
      by decide +kernel, by decide +kernel, by decide +kernel⟩
  obtain ⟨log, _, -, hassets, -, hsame, -, -⟩ := redemptions_exact (sampleWorld_deployed 0) hrun
  rw [hbalance, hdeposited, hplain, Nat.zero_add] at hassets
  exact ⟨m, log, hrun, hbalance, hassets, hsame ▸ hassets⟩

end AdvFoundry.Rebase
