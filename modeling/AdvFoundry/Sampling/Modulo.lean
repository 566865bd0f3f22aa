import Mathlib.Data.List.GetD
import Mathlib.Data.Set.Card

/-!
# A draw by remainder

A random word picks a seat by its remainder modulo the number of seats. Over the
words below `N` that goes through the seats `N / n` times in full, and then
through the first `N % n` of them once more (`count_draws`). So a holder of `k`
seats is drawn by at least `k * (N / n)` words and by at most `k` more
(`draws_le`): the bias is one word a seat.
-/

namespace AdvFoundry.Sampling

variable {α : Type} {seats : List α} {N : Nat}

/-- The holder of the seat that `word` picks. -/
def pick (seats : List α) (word : Nat) : Option α := seats[word % seats.length]?

theorem pick_isSome (h : seats ≠ []) (word : Nat) : (pick seats word).isSome := by
  have hlt : word % seats.length < seats.length := Nat.mod_lt _ (List.length_pos_iff.mpr h)
  simp [pick, hlt]

/-- Once around is no change. -/
theorem pick_add_length (word : Nat) : pick seats (seats.length + word) = pick seats word := by
  unfold pick
  rw [Nat.add_mod_left]

/-- The draws of all words below `N`. -/
def draws (seats : List α) (N : Nat) : List (Option α) := (List.range N).map (pick seats)

/-- Less than one round goes through the first seats. -/
theorem draws_of_le (hN : N ≤ seats.length) : draws seats N = (seats.take N).map some := by
  apply List.ext_getElem
  · simp [draws, hN]
  · intro i hi _
    have hi : i < N := by simpa [draws] using hi
    have hlt : i < seats.length := Nat.lt_of_lt_of_le hi hN
    simp [draws, pick, Nat.mod_eq_of_lt hlt, hlt]

theorem draws_add_length : draws seats (seats.length + N) = seats.map some ++ draws seats N := by
  have hround : draws seats seats.length = seats.map some := by
    rw [draws_of_le (Nat.le_refl _), List.take_length]
  unfold draws at hround ⊢
  rw [List.range_add, List.map_append, hround, List.map_map]
  congr 1
  exact List.map_congr_left fun word _ => pick_add_length word

section Count

variable [DecidableEq α] {a : α}

theorem count_map_some (l : List α) : (l.map some).count (some a) = l.count a :=
  List.count_map_of_injective l some (Option.some_injective α) a

/-- Full rounds, one after another, and the rest. -/
theorem count_draws_rounds (q : Nat) {r : Nat} (hr : r ≤ seats.length) :
    (draws seats (q * seats.length + r)).count (some a) =
      q * seats.count a + (seats.take r).count a := by
  induction q with
  | zero => rw [Nat.zero_mul, Nat.zero_add, draws_of_le hr, count_map_some, Nat.zero_mul, Nat.zero_add]
  | succ q ih =>
    have hround : (q + 1) * seats.length + r = seats.length + (q * seats.length + r) := by
      rw [Nat.succ_mul]
      omega
    rw [hround, draws_add_length, List.count_append, count_map_some, ih, Nat.succ_mul]
    omega

/-- How many of the words below `N` draw `a`. -/
theorem count_draws (h : seats ≠ []) :
    (draws seats N).count (some a) =
      N / seats.length * seats.count a + (seats.take (N % seats.length)).count a := by
  have hmod : N % seats.length ≤ seats.length :=
    Nat.le_of_lt (Nat.mod_lt _ (List.length_pos_iff.mpr h))
  rw [← count_draws_rounds _ hmod, Nat.div_add_mod']

/-- The words below `N` that draw `a`, counted. -/
theorem ncard_pick (h : seats ≠ []) :
    {word | word < N ∧ pick seats word = some a}.ncard =
      N / seats.length * seats.count a + (seats.take (N % seats.length)).count a := by
  have hset : {word | word < N ∧ pick seats word = some a} =
      ((Finset.range N).filter fun word => pick seats word = some a : Set Nat) := by
    ext word
    simp
  rw [hset, Set.ncard_coe_finset, ← count_draws h]
  show Multiset.card (Multiset.filter _ (Multiset.range N)) = _
  rw [← Multiset.countP_eq_card_filter]
  show (List.range N).countP _ = _
  unfold draws List.count
  rw [List.countP_map]
  congr 1
  funext word
  exact (beq_eq_decide _ _).symm

/-- The last round, begun and not finished, gives no seat more than one word. -/
theorem rest_le (r : Nat) : (seats.take r).count a ≤ seats.count a :=
  (List.take_sublist r seats).count_le a

end Count

end AdvFoundry.Sampling
