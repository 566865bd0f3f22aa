import Mathlib.Algebra.BigOperators.Group.List.Basic
import Mathlib.Algebra.GroupWithZero.Nat
import Mathlib.Data.List.Nodup
import Mathlib.Logic.Function.Basic

/-!
# OpenZeppelin EnumerableSet, and swap and pop

To delete from an array in constant time, the last element is moved to the place
of the deleted one and the array gets shorter (`swapPop`). That changes the order
and nothing else: what is left is a permutation of the array without the element.

`EnumerableSet` keeps beside the array, for each value, its position plus one.
That the two agree is a field, so the array of a set has no repetitions, and the
positions say what is in it.
-/

namespace AdvFoundry

open Function

variable {α : Type}

/-- Overwrites the element at `i` with the last one, and drops the last place. -/
def swapPop (l : List α) (i : Nat) : List α :=
  match l.getLast? with
  | none => []
  | some last => (l.set i last).dropLast

theorem swapPop_append (init : List α) (last : α) (i : Nat) :
    swapPop (init ++ [last]) i = ((init ++ [last]).set i last).dropLast := by
  simp [swapPop]

/-- Nothing but the element at `i` is gone. -/
theorem swapPop_perm {l : List α} {i : Nat} (hi : i < l.length) :
    List.Perm (l[i] :: swapPop l i) l := by
  rcases List.eq_nil_or_concat' l with rfl | ⟨init, last, rfl⟩
  · cases hi
  · rw [swapPop_append]
    by_cases hlast : i < init.length
    · rw [List.set_append_left _ _ hlast, List.dropLast_concat, List.getElem_append_left hlast,
        List.set_eq_take_append_cons_drop, if_pos hlast]
      have hsplit : init = init.take i ++ init[i] :: init.drop (i + 1) := by simp
      calc
        List.Perm (init[i] :: (init.take i ++ last :: init.drop (i + 1)))
            (last :: (init.take i ++ init[i] :: init.drop (i + 1))) := by
          exact ((List.perm_middle.cons _).trans (.swap _ _ _)).trans (List.perm_middle.symm.cons _)
        List.Perm _ (init ++ [last]) := by
          rw [← hsplit]
          exact (List.perm_append_singleton last init).symm
    · have hend : i = init.length := by
        simp only [List.length_append, List.length_singleton] at hi
        omega
      subst hend
      simp [List.perm_append_singleton last init |>.symm]

/-- What else is in an array without repetitions when `a` is taken out. -/
theorem mem_of_perm_cons {l rest : List α} {a b : α} (hperm : List.Perm (a :: rest) l)
    (hnodup : l.Nodup) : b ∈ rest ↔ b ∈ l ∧ b ≠ a := by
  have hcons := hperm.nodup_iff.mpr hnodup
  rw [← hperm.mem_iff, List.mem_cons]
  constructor
  · exact fun hb => ⟨.inr hb, fun hab => (List.nodup_cons.mp hcons).1 (hab ▸ hb)⟩
  · exact fun ⟨hb, hne⟩ => hb.resolve_left hne

section Remove

variable [DecidableEq α] {l : List α} {a : α}

/-- The loop that looks for `a` and swaps it out. -/
def swapRemove (l : List α) (a : α) : List α :=
  match l.idxOf? a with
  | none => l
  | some i => swapPop l i

theorem swapRemove_of_notMem (h : a ∉ l) : swapRemove l a = l := by
  simp [swapRemove, List.idxOf?_eq_none_iff.mpr h]

theorem swapRemove_perm (h : a ∈ l) : List.Perm (a :: swapRemove l a) l := by
  unfold swapRemove
  cases hfound : l.idxOf? a with
  | none => exact absurd h (List.idxOf?_eq_none_iff.mp hfound)
  | some i =>
    obtain ⟨hi, hget, -⟩ := List.idxOf?_eq_some_iff.mp hfound
    have hrest := swapPop_perm hi
    rwa [hget] at hrest

/-- Without repetitions the loop deletes `a` altogether. -/
theorem mem_swapRemove {b : α} (hnodup : l.Nodup) : b ∈ swapRemove l a ↔ b ∈ l ∧ b ≠ a := by
  by_cases h : a ∈ l
  · exact mem_of_perm_cons (swapRemove_perm h) hnodup
  · rw [swapRemove_of_notMem h]
    exact ⟨fun hb => ⟨hb, fun hab => h (hab ▸ hb)⟩, And.left⟩

theorem nodup_swapRemove (hnodup : l.Nodup) : (swapRemove l a).Nodup := by
  by_cases h : a ∈ l
  · exact (List.nodup_cons.mp ((swapRemove_perm h).nodup_iff.mpr hnodup)).2
  · rwa [swapRemove_of_notMem h]

theorem length_swapRemove_le : (swapRemove l a).length ≤ l.length := by
  by_cases h : a ∈ l
  · rw [← (swapRemove_perm h).length_eq]
    exact Nat.le_succ _
  · exact Nat.le_of_eq (congrArg List.length (swapRemove_of_notMem h))

end Remove

/-! ## Sets -/

/-- `EnumerableSet.Set`: `_values` and `_indexes`. -/
structure EnumerableSet (α : Type) where
  values : List α
  indexes : α → Nat
  indexed : ∀ a i, indexes a = i + 1 ↔ values[i]? = some a

namespace EnumerableSet

variable {s : EnumerableSet α} {a b : α}

def empty : EnumerableSet α where
  values := []
  indexes := fun _ => 0
  indexed := by simp

/-- `_contains`. -/
def contains (s : EnumerableSet α) (a : α) : Bool := s.indexes a != 0

theorem contains_iff : s.contains a = true ↔ a ∈ s.values := by
  unfold contains
  rw [bne_iff_ne, List.mem_iff_getElem?]
  constructor
  · intro h
    obtain ⟨i, hi⟩ := Nat.exists_eq_succ_of_ne_zero h
    exact ⟨i, (s.indexed a i).mp hi⟩
  · rintro ⟨i, hi⟩
    rw [(s.indexed a i).mpr hi]
    exact Nat.succ_ne_zero i

theorem nodup_values : s.values.Nodup := by
  rw [List.nodup_iff_getElem?_ne_getElem?]
  intro i j hij hj heq
  have hsame := (s.indexed _ i).mpr (heq.trans (List.getElem?_eq_getElem hj))
  have hother := (s.indexed _ j).mpr (List.getElem?_eq_getElem hj)
  omega

section Updates

variable [DecidableEq α]

/-- A new value goes to the end. -/
theorem indexed_push (h : a ∉ s.values) (b : α) (i : Nat) :
    update s.indexes a (s.values.length + 1) b = i + 1 ↔ (s.values ++ [a])[i]? = some b := by
  have hat := s.indexed b i
  by_cases hb : b = a
  · subst hb
    have hnone : s.values[i]? ≠ some b := fun hi => h (List.mem_of_getElem? hi)
    rw [update_self]
    grind
  · rw [update_of_ne hb, hat]
    grind

/-- The places of an array without its last element. -/
theorem indexed_pop (hlast : s.values[s.values.length - 1]? = some a) (b : α) (i : Nat) :
    update s.indexes a 0 b = i + 1 ↔ s.values.dropLast[i]? = some b := by
  have hat := s.indexed b i
  have hend := (s.indexed a _).mpr hlast
  by_cases hb : b = a
  · subst hb
    rw [update_self]
    grind
  · rw [update_of_ne hb, hat]
    grind

/-- The places after the last value has moved to the place of `a`. -/
theorem indexed_swapPop {t : Nat} {last : α} (hat : s.indexes a = t + 1)
    (hlast : s.values[s.values.length - 1]? = some last) (hne : t ≠ s.values.length - 1)
    (b : α) (i : Nat) :
    update (update s.indexes last (t + 1)) a 0 b = i + 1 ↔
      (s.values.set t last).dropLast[i]? = some b := by
  have ht := (s.indexed a t).mp hat
  have hb := s.indexed b i
  have hend := (s.indexed last _).mpr hlast
  by_cases ha : b = a
  · subst ha
    rw [update_self]
    grind
  · rw [update_of_ne ha]
    by_cases hmoved : b = last
    · subst hmoved
      rw [update_self]
      grind
    · rw [update_of_ne hmoved, hb]
      grind

/-- `_add`. -/
def add (s : EnumerableSet α) (a : α) : EnumerableSet α :=
  if h : s.contains a = true then s
  else
    { values := s.values ++ [a]
      indexes := update s.indexes a (s.values.length + 1)
      indexed := indexed_push fun hmem => h (contains_iff.mpr hmem) }

/-- `_remove`. -/
def remove (s : EnumerableSet α) (a : α) : EnumerableSet α :=
  match hat : s.indexes a with
  | 0 => s
  | toDeleteIndex + 1 =>
    match hlast : s.values[s.values.length - 1]? with
    | none => s
    | some lastValue =>
      if hne : toDeleteIndex ≠ s.values.length - 1 then
        { values := (s.values.set toDeleteIndex lastValue).dropLast
          indexes := update (update s.indexes lastValue (toDeleteIndex + 1)) a 0
          indexed := indexed_swapPop hat hlast hne }
      else
        { values := s.values.dropLast
          indexes := update s.indexes a 0
          indexed := indexed_pop (by
            rw [← not_not.mp hne]
            exact (s.indexed a toDeleteIndex).mp hat) }

theorem values_add (h : a ∉ s.values) : (s.add a).values = s.values ++ [a] := by
  have hcontains : ¬ s.contains a = true := fun hc => h (contains_iff.mp hc)
  simp [add, hcontains]

theorem mem_add : b ∈ (s.add a).values ↔ b = a ∨ b ∈ s.values := by
  by_cases h : s.contains a = true
  · have hmem := contains_iff.mp h
    rw [add, dif_pos h]
    exact ⟨.inr, fun hb => hb.elim (fun hab => hab ▸ hmem) id⟩
  · rw [values_add fun hmem => h (contains_iff.mpr hmem), List.mem_append, List.mem_singleton]
    exact or_comm

/-- Where the value is, the array is swapped and popped. -/
theorem values_remove {i : Nat} (hi : s.values[i]? = some a) :
    (s.remove a).values = swapPop s.values i := by
  have hat := (s.indexed a i).mpr hi
  have hlt : i < s.values.length := (List.getElem?_eq_some_iff.mp hi).1
  have hlast : s.values.getLast? = some (s.values[s.values.length - 1]) := by grind
  unfold remove
  split
  · next hzero => omega
  · next t ht =>
    have hti : t = i := by omega
    subst hti
    split
    · next hnone => grind
    · next last hsome =>
      split
      · grind [swapPop]
      · next heq =>
        have heq := not_not.mp heq
        have hsame : s.values.set t (s.values[s.values.length - 1]) = s.values := by
          subst heq
          exact List.set_getElem_self _
        simp only [swapPop, hlast, hsame]

theorem remove_of_notMem (h : a ∉ s.values) : s.remove a = s := by
  have hzero : s.indexes a = 0 := by
    by_contra hne
    exact h (contains_iff.mp (bne_iff_ne.mpr hne))
  unfold remove
  split
  · rfl
  · next hsucc => omega

/-- What is removed was there once, and the rest stays. -/
theorem remove_perm (h : a ∈ s.values) : List.Perm (a :: (s.remove a).values) s.values := by
  obtain ⟨i, hi⟩ := List.mem_iff_getElem?.mp h
  obtain ⟨hlt, hget⟩ := List.getElem?_eq_some_iff.mp hi
  rw [values_remove hi]
  have hperm := swapPop_perm hlt
  rwa [hget] at hperm

theorem mem_remove : b ∈ (s.remove a).values ↔ b ∈ s.values ∧ b ≠ a := by
  by_cases h : a ∈ s.values
  · exact mem_of_perm_cons (remove_perm h) nodup_values
  · rw [remove_of_notMem h]
    exact ⟨fun hb => ⟨hb, fun hab => h (hab ▸ hb)⟩, And.left⟩

/-- `_length` and `_at`. -/
def length (s : EnumerableSet α) : Nat := s.values.length

def at? (s : EnumerableSet α) (i : Nat) : Option α := s.values[i]?

/-! ### Sums over a set -/

variable {f g : α → Nat}

/-- The sum of `f` over what is in the set. -/
def sum (s : EnumerableSet α) (f : α → Nat) : Nat := (s.values.map f).sum

omit [DecidableEq α] in
theorem sum_congr (h : ∀ a ∈ s.values, f a = g a) : s.sum f = s.sum g :=
  congrArg List.sum (List.map_congr_left h)

theorem sum_add (h : a ∉ s.values) : (s.add a).sum f = s.sum f + f a := by
  simp [sum, values_add h]

theorem sum_remove (h : a ∈ s.values) : f a + (s.remove a).sum f = s.sum f := by
  have hperm := ((remove_perm h).map f).sum_eq
  rwa [List.map_cons, List.sum_cons] at hperm

theorem le_sum (h : a ∈ s.values) : f a ≤ s.sum f := by
  rw [← sum_remove h]
  exact Nat.le_add_right _ _

/-- One write changes the sum by the difference of the written value. -/
theorem sum_update (h : a ∈ s.values) (v : Nat) : s.sum (update f a v) + f a = s.sum f + v := by
  have hrest : (s.remove a).sum (update f a v) = (s.remove a).sum f :=
    sum_congr fun b hb => update_of_ne (mem_remove.mp hb).2 v f
  have hnew := sum_remove (f := update f a v) h
  have hold := sum_remove (f := f) h
  rw [hrest, update_self] at hnew
  omega

end Updates

end EnumerableSet

end AdvFoundry
