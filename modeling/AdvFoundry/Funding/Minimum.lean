import AdvFoundry.Funding.Ledger

/-!
# The minimum contribution of FundMe

`getPrice` multiplies the answer on `int256` and then converts it to `uint256`
without a check. A negative answer comes out of that as a price of at least
`2 ^ 255`, at which a single wei is worth more than the minimum and any two wei
overflow the next product.

`minimum_enforced_iff`: that is the only way around the minimum.
-/

namespace AdvFoundry.Funding

open LedgerLemmas

/-- The ways to pay in: the function, plain ETH, and ETH with other data. -/
def entries : List (Env → Address → Nat → FundTx Unit) := [fund, receive, fallback]

/-- `value` wei at `answer` are worth five dollars: the answer is positive, and
the product, scaled by `10 ^ 10` for the feed and by `10 ^ 18` for wei, reaches
the minimum. -/
def Worth (answer : Int256) (value : Nat) : Prop :=
  0 < answer.val ∧ 5 * 10 ^ 36 ≤ answer.val * 10 ^ 10 * value

/-- The scaled answer does not fall below `int256`. -/
def Fits (answer : Int256) : Prop := -2 ^ 255 ≤ answer.val * 10 ^ 10

namespace MinimumLemmas

variable {env : Env} {sender : Address} {value : Nat} {w : World} {round : RoundData}
  {answer : Int256}

theorem eq_fund_of_mem {pay : Env → Address → Nat → FundTx Unit} (hpay : pay ∈ entries) :
    pay = fund := by
  simp only [entries, List.mem_cons, List.not_mem_nil, or_false] at hpay
  rcases hpay with rfl | rfl | rfl <;> rfl

/-- What the arithmetic of `fund` lets through. -/
def Accepted (answer : Int256) (value : Nat) : Prop :=
  ∃ price : Int256, price.val = answer.val * 10 ^ 10 ∧ price.toUint256 * value < uintSize ∧
    MINIMUM_USD ≤ price.toUint256 * value / 10 ^ 18

theorem mulI_ok {ε : Type} {x r : Int256} {k : Int} :
    (mulI x k : Result ε Int256) = .ok r ↔ r.val = x.val * k := by
  unfold mulI
  split
  · next h =>
    constructor
    · intro heq
      cases heq
      rfl
    · intro hval
      cases r
      cases hval
      rfl
  · next h =>
    constructor
    · intro heq
      cases heq
    · intro hval
      exact absurd (hval ▸ ⟨r.lower, r.upper⟩) h

/-- `fund` returns for what its arithmetic lets through, as long as the sender's
total is a `uint256`. -/
theorem fund_succeeds (hround : env.latestRoundData w.fundMe.priceFeed = some round)
    (htotal : w.fundMe.addressToAmountFunded sender + value < uintSize) :
    (fund env sender value).succeeds w = true ↔ Accepted round.answer value := by
  have hset : (w.setBalance (w.balance + value)).fundMe = w.fundMe := rfl
  constructor
  · intro hsucceeds
    have hok := Tx.ok_after hsucceeds
    simp only [fund, getConversionRate, getPrice, Tx.bind_ok, Tx.modify_ok, Tx.view_ok,
      Tx.revertIf_ok, Result.bind_ok, Result.ofOption_ok, Result.pure_ok, mulU_ok, divU_ok,
      mulI_ok] at hok
    obtain ⟨_, _, rfl, _, _, ⟨⟨_, ⟨_, hr, price, hprice, rfl⟩, _, ⟨hfits, rfl⟩, -, rfl⟩, rfl⟩,
      _, _, ⟨hrate, rfl⟩, -⟩ := hok
    rw [hset, hround] at hr
    cases hr
    exact ⟨price, hprice, hfits, not_not.mp hrate⟩
  · rintro ⟨price, hprice, hfits, hrate⟩
    have hok : fund env sender value w = .ok ((), fundedWorld w sender value) := by
      simp only [fund, getConversionRate, getPrice, Tx.bind_ok, Tx.modify_ok, Tx.view_ok,
        Tx.revertIf_ok, Tx.tryModify_ok, Result.bind_ok, Result.ofOption_ok, Result.pure_ok,
        addU_ok, mulU_ok, divU_ok, mulI_ok]
      exact ⟨(), _, rfl, _, _, ⟨⟨_, ⟨round, hround, price, hprice, rfl⟩, _, ⟨hfits, rfl⟩,
        by decide, rfl⟩, rfl⟩, (), _, ⟨not_not.mpr hrate, rfl⟩, (), _, ⟨_, ⟨htotal, rfl⟩, rfl⟩, rfl⟩
    exact (Tx.of_ok hok).1

/-- At a non-negative answer that is the minimum, below the overflows. -/
theorem accepted_of_nonneg (h : 0 ≤ answer.val) :
    Accepted answer value ↔ answer.val * 10 ^ 10 < 2 ^ 255 ∧
      answer.val * 10 ^ 10 * value < 2 ^ 256 ∧ 5 * 10 ^ 36 ≤ answer.val * 10 ^ 10 * value := by
  obtain ⟨n, hn⟩ := Int.eq_ofNat_of_zero_le h
  have hscaled : answer.val * 10 ^ 10 = ((n * 10 ^ 10 : Nat) : Int) := by
    rw [hn, Nat.cast_mul]
    rfl
  have hworth : MINIMUM_USD ≤ n * 10 ^ 10 * value / 10 ^ 18 ↔ 5 * 10 ^ 36 ≤ n * 10 ^ 10 * value :=
    Nat.le_div_iff_mul_le (by decide)
  rw [hscaled, ← Nat.cast_mul]
  constructor
  · rintro ⟨price, hprice, hfits, hrate⟩
    rw [Int256.toUint256_of_nonneg (hprice.trans hscaled)] at hfits hrate
    have hupper := price.upper
    rw [hprice, hscaled] at hupper
    exact ⟨hupper, Int.ofNat_lt.mpr hfits, Int.ofNat_le.mpr (hworth.mp hrate)⟩
  · rintro ⟨hupper, hfits, hrate⟩
    refine ⟨⟨answer.val * 10 ^ 10, by omega, by omega⟩, rfl, ?_⟩
    rw [Int256.toUint256_of_nonneg hscaled]
    exact ⟨Int.ofNat_lt.mp hfits, hworth.mpr (Int.ofNat_le.mp hrate)⟩

/-- At a negative answer it is one wei, unless the scaling panics. -/
theorem accepted_of_neg (h : answer.val < 0) : Accepted answer value ↔ value = 1 ∧ Fits answer := by
  constructor
  · rintro ⟨price, hprice, hfits, hrate⟩
    have hlower : Fits answer := le_of_le_of_eq price.lower hprice
    have hwrap := Int256.le_toUint256_of_neg (x := price) (by omega)
    refine ⟨?_, hlower⟩
    rcases value with _ | _ | value
    · rw [Nat.mul_zero] at hrate
      exact absurd hrate (by decide)
    · rfl
    · -- two wei already overflow the product with the wrapped price
      have htwice : price.toUint256 * 2 ≤ price.toUint256 * (value + 1 + 1) :=
        Nat.mul_le_mul_left _ (by omega)
      unfold uintSize at hfits
      omega
  · rintro ⟨rfl, hlower⟩
    let price : Int256 := ⟨answer.val * 10 ^ 10, hlower, by omega⟩
    have hwrap : 2 ^ 255 ≤ price.toUint256 :=
      Int256.le_toUint256_of_neg (show answer.val * 10 ^ 10 < 0 by omega)
    refine ⟨price, rfl, ?_, ?_⟩
    · rw [Nat.mul_one]
      exact Int256.toUint256_lt
    · rw [Nat.mul_one]
      exact (by decide : MINIMUM_USD ≤ 2 ^ 255 / 10 ^ 18).trans (Nat.div_le_div_right hwrap)

end MinimumLemmas

open MinimumLemmas

/-- In every state of every run, for every answer of the feed and every value the
contract's balance has room for: paying in is accepted only for five dollars or
more, and then every larger value is too, unless a single wei meets a negative
answer that can be scaled. -/
theorem minimum_enforced_iff {this : Address} {w₀ : World} {m : FundMachine}
    {events : List (Event (Msg this) Unit)} (h₀ : Deployed w₀)
    (hrun : Run (Step this) ⟨w₀, []⟩ events m) {pay : Env → Address → Nat → FundTx Unit}
    (hpay : pay ∈ entries) {env : Env} {round : RoundData}
    (hround : env.latestRoundData m.world.fundMe.priceFeed = some round) (sender : Address)
    {value : Nat} (hroom : m.world.balance + value < uintSize) :
    (((pay env sender value).succeeds m.world = true → Worth round.answer value) ∧
      ((pay env sender value).succeeds m.world = true → ∀ value', value < value' →
        round.answer.val * 10 ^ 10 * value' < 2 ^ 255 → m.world.balance + value' < uintSize →
        (pay env sender value').succeeds m.world = true)) ↔
      (value ≠ 1 ∨ 0 ≤ round.answer.val ∨ ¬ Fits round.answer) := by
  have hamount : m.world.fundMe.addressToAmountFunded sender ≤ m.world.balance :=
    (Finset.single_le_sum (fun _ _ => Nat.zero_le _) (Finset.mem_univ sender)).trans
      (matched_run h₀ hrun).covered
  have haccepts {v : Nat} (hv : m.world.balance + v < uintSize) :
      (pay env sender v).succeeds m.world = true ↔ Accepted round.answer v := by
    rw [eq_fund_of_mem hpay]
    exact fund_succeeds hround (lt_of_le_of_lt (Nat.add_le_add_right hamount v) hv)
  rw [haccepts hroom]
  rcases Int.lt_or_le round.answer.val 0 with hneg | hnonneg
  · rw [accepted_of_neg hneg]
    constructor
    · rintro ⟨hworth, -⟩
      have hrefused : ¬ (value = 1 ∧ Fits round.answer) :=
        fun h => absurd (hworth h).1 (not_lt.mpr hneg.le)
      rcases not_and_or.mp hrefused with hne | hfits
      · exact .inl hne
      · exact .inr (.inr hfits)
    · rintro (hne | hle | hfits)
      · exact ⟨fun h => absurd h.1 hne, fun h => absurd h.1 hne⟩
      · exact absurd hneg (not_lt.mpr hle)
      · exact ⟨fun h => absurd h.2 hfits, fun h => absurd h.2 hfits⟩
  · rw [accepted_of_nonneg hnonneg]
    refine iff_of_true ⟨fun ⟨_, _, hrate⟩ => ⟨?_, hrate⟩, ?_⟩ (.inr (.inl hnonneg))
    · rcases hnonneg.lt_or_eq with hpos | hzero
      · exact hpos
      · rw [← hzero, Int.zero_mul, Int.zero_mul] at hrate
        exact absurd hrate (by decide)
    · rintro ⟨hupper, -, hrate⟩ v hlt hv hbalance
      rw [haccepts hbalance, accepted_of_nonneg hnonneg]
      have hgrows : round.answer.val * 10 ^ 10 * (value : Int) ≤ round.answer.val * 10 ^ 10 * v :=
        mul_le_mul_of_nonneg_left (by omega) (by omega)
      exact ⟨hupper, hv.trans (by decide), hrate.trans hgrows⟩

/-- At twenty-five hundred dollars a hundredth of an ETH is accepted, and so is a
hundred ETH. -/
theorem minimum_enforced_iff_hundredth :
    Run (Step 1) ⟨sampleWorld, []⟩ fundingEvents fundedMachine ∧
      (receive sampleEnv 17 (10 ^ 16)).succeeds fundedMachine.world = true ∧
      5 * 10 ^ 36 ≤ (2500 * 10 ^ 8 : Int) * 10 ^ 10 * (10 ^ 16 : Nat) ∧
      (receive sampleEnv 17 (10 ^ 20)).succeeds fundedMachine.world = true := by
  have hrun : Run (Step 1) ⟨sampleWorld, []⟩ fundingEvents fundedMachine :=
    Run.of_foldlM (fun _ _ _ h => h) (Option.some_get _).symm
  have haccepts : (receive sampleEnv 17 (10 ^ 16)).succeeds fundedMachine.world = true := by
    decide +kernel
  obtain ⟨hworth, hmore⟩ := (@minimum_enforced_iff 1 sampleWorld fundedMachine fundingEvents
    ⟨18, 11, rfl⟩ hrun receive (by simp [entries]) sampleEnv
    ⟨1, ⟨2500 * 10 ^ 8, by decide, by decide⟩, 1000, 1000, 1⟩ rfl 17 (10 ^ 16)
    (by decide +kernel)).mpr (.inl (by decide))
  exact ⟨hrun, haccepts, (hworth haccepts).2,
    hmore haccepts (10 ^ 20) (by decide) (by decide) (by decide +kernel)⟩

/-- A block in which the feed at `12` answers minus one. -/
def negativeEnv : Env where
  timestamp := 1000
  latestRoundData := fun feed =>
    if feed = 12 then some ⟨1, ⟨-1, by decide, by decide⟩, 1000, 1000, 1⟩ else none
  no_feed_at_zero := if_neg (by decide)

/-- The contract that reads it, deployed by the account `31`. -/
def negativeWorld : World := ⟨constructor 31 12, 0⟩

/-- At the answer minus one, one wei is accepted and two are not. -/
theorem minimum_passed_by_one_wei :
    Deployed negativeWorld ∧
      (∃ round, negativeEnv.latestRoundData negativeWorld.fundMe.priceFeed = some round ∧
        round.answer.val = -1 ∧ ¬ Worth round.answer 1 ∧
        round.answer.val * 10 ^ 10 * (2 : Nat) < 2 ^ 255) ∧
      (∀ pay ∈ entries, (pay negativeEnv 33 1).succeeds negativeWorld = true ∧
        (pay negativeEnv 33 2).succeeds negativeWorld = false) := by
  refine ⟨⟨31, 12, rfl⟩, ⟨_, rfl, rfl, fun h => absurd h.1 (by decide), by decide⟩, ?_⟩
  intro pay hpay
  rw [eq_fund_of_mem hpay]
  exact ⟨by decide +kernel, by decide +kernel⟩

end AdvFoundry.Funding
