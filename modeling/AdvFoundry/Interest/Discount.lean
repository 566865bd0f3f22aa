import Mathlib.Analysis.Complex.Exponential
import Mathlib.Algebra.BigOperators.Group.List.Basic
import Mathlib.Algebra.BigOperators.Field

/-!
# Discounting

Amounts of money at different times are compared by what they are worth at time
zero, at a rate `r` that compounds continuously: an amount at time `t` counts
`amount * exp (-(r * t))`. An account that accrues linear interest at a rate of
at most `r` is worth less and less by this measure (`accrued_le`,
`worth_le_of_grown`), however often it is settled: compounding at every instant
is the limit that no schedule of settlements reaches.
-/

namespace AdvFoundry

/-- An amount at a time. -/
structure Flow where
  time : Nat
  amount : Nat
  deriving DecidableEq, Repr

namespace Interest

/-- The worth at time zero of an amount at `time`. -/
noncomputable def worth (r : ℝ) (time : Nat) (amount : ℝ) : ℝ := amount * Real.exp (-(r * time))

noncomputable def presentValue (r : ℝ) (flows : List Flow) : ℝ :=
  (flows.map fun f => worth r f.time f.amount).sum

/-- The amounts alone. -/
def total (flows : List Flow) : Nat := (flows.map Flow.amount).sum

variable {r s b : ℝ} {flows : List Flow} {f : Flow} {t d : Nat}

theorem presentValue_append :
    presentValue r (flows ++ [f]) = presentValue r flows + worth r f.time f.amount := by
  rw [presentValue, List.map_append, List.sum_append]
  simp [presentValue]

theorem total_append : total (flows ++ [f]) = total flows + f.amount := by
  rw [total, List.map_append, List.sum_append]
  simp [total]

theorem worth_add (a a' : ℝ) : worth r t (a + a') = worth r t a + worth r t a' :=
  add_mul ..

theorem worth_mono {a a' : ℝ} (h : a ≤ a') : worth r t a ≤ worth r t a' :=
  mul_le_mul_of_nonneg_right h (Real.exp_nonneg _)

/-- Linear interest at a rate of at most `r` from a start in the past grows no
faster than compounding at `r`. -/
theorem accrued_le (hb : 0 ≤ b) (hs : 0 ≤ s) (hsr : s ≤ r) {elapsed : ℝ} (helapsed : 0 ≤ elapsed) :
    b * (1 + s * (elapsed + d)) ≤ b * (1 + s * elapsed) * Real.exp (r * d) := by
  have hd : (0 : ℝ) ≤ d := Nat.cast_nonneg d
  have hfactor : 1 + s * (elapsed + d) ≤ (1 + s * elapsed) * (1 + r * d) := by
    have hcross : 0 ≤ s * elapsed * (r * d) :=
      mul_nonneg (mul_nonneg hs helapsed) (mul_nonneg (hs.trans hsr) hd)
    have hrate : s * d ≤ r * d := mul_le_mul_of_nonneg_right hsr hd
    linarith
  have hexp : 1 + r * d ≤ Real.exp (r * d) := by
    rw [add_comm]
    exact Real.add_one_le_exp _
  have hgrown : 0 ≤ 1 + s * elapsed := add_nonneg zero_le_one (mul_nonneg hs helapsed)
  calc b * (1 + s * (elapsed + d))
      ≤ b * ((1 + s * elapsed) * (1 + r * d)) := mul_le_mul_of_nonneg_left hfactor hb
    _ ≤ b * ((1 + s * elapsed) * Real.exp (r * d)) :=
        mul_le_mul_of_nonneg_left (mul_le_mul_of_nonneg_left hexp hgrown) hb
    _ = b * (1 + s * elapsed) * Real.exp (r * d) := (mul_assoc ..).symm

/-- What grows no faster than compounding at `r` loses worth. -/
theorem worth_le_of_grown {a a' : ℝ} (h : a' ≤ a * Real.exp (r * d)) :
    worth r (t + d) a' ≤ worth r t a := by
  have hsplit : Real.exp (r * d) * Real.exp (-(r * ((t + d : Nat) : ℝ))) = Real.exp (-(r * t)) := by
    rw [← Real.exp_add]
    congr 1
    push_cast
    ring
  calc worth r (t + d) a' ≤ worth r (t + d) (a * Real.exp (r * d)) := worth_mono h
    _ = worth r t a := by rw [worth, mul_assoc, hsplit, worth]

end Interest

end AdvFoundry
