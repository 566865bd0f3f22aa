import AdvFoundry.Json.RoundTrip

/-!
# Texts with any white space

The grammar of JSON as a relation between a text, the value at its front and the
rest, for strings without escapes and natural numbers, with any white space where
the parser skips it. `parse_of_reads`: the parser reads every such text.
-/

namespace AdvFoundry.Json

mutual

/-- A value, from its first character on. -/
inductive Reads : List Char → Json → List Char → Prop
  | null {t : List Char} : Reads ('n' :: 'u' :: 'l' :: 'l' :: t) null t
  | true {t : List Char} : Reads ('t' :: 'r' :: 'u' :: 'e' :: t) (bool true) t
  | false {t : List Char} : Reads ('f' :: 'a' :: 'l' :: 's' :: 'e' :: t) (bool false) t
  | nat (n : Nat) {t : List Char} :
      Stops t → Reads (Nat.toDigits 10 n ++ t) (number (Nat.toDigits 10 n)) t
  | string {s t : List Char} :
      (∀ c ∈ s, isPlain c = Bool.true) → Reads ('"' :: (s ++ '"' :: t)) (string s) t
  | emptyArray {l t : List Char} : skip l = ']' :: t → Reads ('[' :: l) (array []) t
  | array {l t : List Char} {vs : List Json} :
      ReadsItems (skip l) vs t → Reads ('[' :: l) (array vs) t
  | emptyObject {l t : List Char} : skip l = '}' :: t → Reads ('{' :: l) (object []) t
  | object {l t : List Char} {ms : List (List Char × Json)} :
      ReadsMembers (skip l) ms t → Reads ('{' :: l) (object ms) t

/-- The items of an array, and its end. -/
inductive ReadsItems : List Char → List Json → List Char → Prop
  | last {l m t : List Char} {v : Json} :
      Reads l v m → skip m = ']' :: t → ReadsItems l [v] t
  | next {l m r t : List Char} {v : Json} {vs : List Json} :
      Reads l v m → skip m = ',' :: r → ReadsItems (skip r) vs t → ReadsItems l (v :: vs) t

/-- The members of an object, and its end. -/
inductive ReadsMembers : List Char → List (List Char × Json) → List Char → Prop
  | last {k l m r t : List Char} {v : Json} :
      (∀ c ∈ k, isPlain c = Bool.true) → skip l = ':' :: m → Reads (skip m) v r →
      skip r = '}' :: t → ReadsMembers ('"' :: (k ++ '"' :: l)) [(k, v)] t
  | next {k l m r s t : List Char} {v : Json} {ms : List (List Char × Json)} :
      (∀ c ∈ k, isPlain c = Bool.true) → skip l = ':' :: m → Reads (skip m) v r →
      skip r = ',' :: s → ReadsMembers (skip s) ms t →
      ReadsMembers ('"' :: (k ++ '"' :: l)) ((k, v) :: ms) t

end

section Parser

variable {l m t : List Char} {v : Json} {n : Nat}

theorem length_skip_le (l : List Char) : (skip l).length ≤ l.length :=
  (List.dropWhile_sublist _).length_le

/-- What is left after a token is shorter. -/
theorem length_of_skip {c : Char} (h : skip l = c :: t) : t.length < l.length := by
  have hle := length_skip_le l
  rw [h, List.length_cons] at hle
  exact hle

/-- A value does not begin with white space or like the end of an array. -/
theorem reads_head (h : Reads l v t) : ∃ c cs, l = c :: cs ∧ isSpace c = Bool.false ∧ c ≠ ']' := by
  cases h with
  | nat n _ =>
    obtain ⟨c, cs, hdigits, hdigit⟩ := toDigits_cons n
    refine ⟨c, cs ++ t, by rw [hdigits, List.cons_append], isSpace_of_isDigit hdigit, ?_⟩
    rintro rfl
    exact absurd hdigit (by decide)
  | null | true | false | string | emptyArray | array | emptyObject | object =>
    exact ⟨_, _, rfl, by decide, by decide⟩

theorem skip_of_reads (h : Reads l v t) : skip l = l := by
  obtain ⟨c, cs, rfl, hspace, -⟩ := reads_head h
  exact skip_cons hspace

theorem readsItems_head {vs : List Json} (h : ReadsItems l vs t) :
    ∃ c cs, l = c :: cs ∧ isSpace c = Bool.false ∧ c ≠ ']' := by
  cases h with
  | last hv _ => exact reads_head hv
  | next hv _ _ => exact reads_head hv

theorem readsMembers_head {ms : List (List Char × Json)} (h : ReadsMembers l ms t) :
    ∃ cs, l = '"' :: cs := by
  cases h with
  | last => exact ⟨_, rfl⟩
  | next => exact ⟨_, rfl⟩

/-! ## Whatever is read is shorter -/

mutual

theorem reads_shorter {l t : List Char} {v : Json} : Reads l v t → t.length < l.length
  | .null | .true | .false => by
    simp only [List.length_cons]
    omega
  | .nat n _ => by
    obtain ⟨c, cs, hdigits, -⟩ := toDigits_cons n
    rw [hdigits, List.length_append, List.length_cons]
    omega
  | .string _ => by
    simp only [List.length_cons, List.length_append]
    omega
  | .emptyArray h | .emptyObject h => Nat.lt_succ_of_lt (length_of_skip h)
  | .array (l := l) h =>
    Nat.lt_succ_of_lt (Nat.lt_of_lt_of_le (readsItems_shorter h) (length_skip_le l))
  | .object (l := l) h =>
    Nat.lt_succ_of_lt (Nat.lt_of_lt_of_le (readsMembers_shorter h) (length_skip_le l))

theorem readsItems_shorter {l t : List Char} {vs : List Json} :
    ReadsItems l vs t → t.length < l.length
  | .last hv hend => Nat.lt_trans (length_of_skip hend) (reads_shorter hv)
  | .next (r := r) hv hcomma hvs => by
    have hvalue := reads_shorter hv
    have hitems := readsItems_shorter hvs
    have hle := length_skip_le r
    have hcomma' := length_of_skip hcomma
    omega

theorem readsMembers_shorter {l t : List Char} {ms : List (List Char × Json)} :
    ReadsMembers l ms t → t.length < l.length
  | .last (m := m) _ hcolon hv hend => by
    have hvalue := reads_shorter hv
    have hle := length_skip_le m
    have hcolon' := length_of_skip hcolon
    have hend' := length_of_skip hend
    simp only [List.length_cons, List.length_append]
    omega
  | .next (m := m) (s := s) _ hcolon hv hcomma hms => by
    have hvalue := reads_shorter hv
    have hmembers := readsMembers_shorter hms
    have hle := length_skip_le m
    have hle' := length_skip_le s
    have hcolon' := length_of_skip hcolon
    have hcomma' := length_of_skip hcomma
    simp only [List.length_cons, List.length_append]
    omega

end

/-! ## The parser reads it

Fuel is enough when it is no less than the number of characters read. -/

theorem value_items {vs : List Json} (hitems : ReadsItems (skip l) vs t)
    (h : items n (skip l) = some (vs, t)) : value (n + 1) ('[' :: l) = some (array vs, t) := by
  obtain ⟨c, cs, hcs, -, hend⟩ := readsItems_head hitems
  rw [value]
  split
  · next heq =>
    rw [hcs] at heq
    exact absurd (List.cons.inj heq).1 hend
  · rw [h]
    rfl

theorem value_members {ms : List (List Char × Json)} (hmembers : ReadsMembers (skip l) ms t)
    (h : members n (skip l) = some (ms, t)) : value (n + 1) ('{' :: l) = some (object ms, t) := by
  obtain ⟨cs, hcs⟩ := readsMembers_head hmembers
  rw [value]
  split
  · next heq =>
    rw [hcs] at heq
    exact absurd (List.cons.inj heq).1 (by decide)
  · rw [h]
    rfl

mutual

theorem value_of_reads {l t : List Char} {v : Json} :
    Reads l v t → ∀ n, l.length ≤ n + t.length → value n l = some (v, t)
  | h, 0, hn => absurd (reads_shorter h) (by omega)
  | .null, n + 1, _ | .true, n + 1, _ | .false, n + 1, _ => rfl
  | .nat m hstops, n + 1, _ => by
    have hnumeral := numeral_nat m hstops
    obtain ⟨c, cs, hdigits, hdigit⟩ := toDigits_cons m
    rw [hdigits] at hnumeral ⊢
    rw [List.cons_append, value_digit hdigit, ← List.cons_append, hnumeral]
    rfl
  | .string (s := s) (t := t) hs, n + 1, _ => by
    show (text (s ++ '"' :: t)).bind (fun p => some (Json.string p.1, p.2)) = _
    rw [text_append hs]
    rfl
  | .emptyArray h, n + 1, _ | .emptyObject h, n + 1, _ => by
    rw [value, h]
    rfl
  | .array (l := l) h, n + 1, hn => by
    have hle := length_skip_le l
    rw [List.length_cons] at hn
    exact value_items h (items_of_reads h n (by omega))
  | .object (l := l) h, n + 1, hn => by
    have hle := length_skip_le l
    rw [List.length_cons] at hn
    exact value_members h (members_of_reads h n (by omega))

theorem items_of_reads {l t : List Char} {vs : List Json} :
    ReadsItems l vs t → ∀ n, l.length ≤ n + t.length → items n l = some (vs, t)
  | h, 0, hn => absurd (readsItems_shorter h) (by omega)
  | .last hv hend, n + 1, hn => by
    have hend' := length_of_skip hend
    rw [items, value_of_reads hv n (by omega)]
    simp only [Option.bind_eq_bind, Option.bind_some, hend]
  | .next (r := r) hv hcomma hvs, n + 1, hn => by
    have hvalue := reads_shorter hv
    have hitems := readsItems_shorter hvs
    have hle := length_skip_le r
    have hcomma' := length_of_skip hcomma
    rw [items, value_of_reads hv n (by omega)]
    simp only [Option.bind_eq_bind, Option.bind_some, hcomma, items_of_reads hvs n (by omega)]

theorem members_of_reads {l t : List Char} {ms : List (List Char × Json)} :
    ReadsMembers l ms t → ∀ n, l.length ≤ n + t.length → members n l = some (ms, t)
  | h, 0, hn => absurd (readsMembers_shorter h) (by omega)
  | .last (m := m) hk hcolon hv hend, n + 1, hn => by
    have hle := length_skip_le m
    have hcolon' := length_of_skip hcolon
    have hend' := length_of_skip hend
    simp only [List.length_cons, List.length_append] at hn
    rw [members, text_append hk]
    simp only [Option.bind_eq_bind, Option.bind_some, hcolon, value_of_reads hv n (by omega), hend]
  | .next (m := m) (s := s) hk hcolon hv hcomma hms, n + 1, hn => by
    have hvalue := reads_shorter hv
    have hmembers := readsMembers_shorter hms
    have hle := length_skip_le m
    have hle' := length_skip_le s
    have hcolon' := length_of_skip hcolon
    have hcomma' := length_of_skip hcomma
    simp only [List.length_cons, List.length_append] at hn
    rw [members, text_append hk]
    simp only [Option.bind_eq_bind, Option.bind_some, hcolon, value_of_reads hv n (by omega), hcomma,
      members_of_reads hms n (by omega)]

end

end Parser

/-- A text of the grammar is parsed, with white space around it. -/
theorem parse_of_reads {v : Json} {json : String} {t : List Char}
    (h : Reads (skip json.toList) v t) (hend : skip t = []) : parse json = some v := by
  have hle := length_skip_le json.toList
  rw [parse, value_of_reads h _ (by omega)]
  simp only [Option.bind_eq_bind, Option.bind_some, hend, if_true]

/-! ## Without white space -/

section Compact

variable {k m s t : List Char} {v : Json} {vs : List Json} {ms : List (List Char × Json)}

theorem reads_lastMember (hk : ∀ c ∈ k, isPlain c = true) (hv : Reads m v ('}' :: t)) :
    ReadsMembers ('"' :: (k ++ '"' :: ':' :: m)) [(k, v)] t := by
  have hskip := skip_of_reads hv
  exact .last hk rfl (hskip.symm ▸ hv) rfl

theorem reads_nextMember (hk : ∀ c ∈ k, isPlain c = true) (hv : Reads m v (',' :: '"' :: s))
    (hms : ReadsMembers ('"' :: s) ms t) :
    ReadsMembers ('"' :: (k ++ '"' :: ':' :: m)) ((k, v) :: ms) t := by
  have hskip := skip_of_reads hv
  exact .next (s := '"' :: s) hk rfl (hskip.symm ▸ hv) rfl hms

theorem reads_nextItem (hv : Reads m v (',' :: s)) (hvs : ReadsItems s vs t) :
    ReadsItems m (v :: vs) t := by
  obtain ⟨c, cs, rfl, hspace, -⟩ := readsItems_head hvs
  refine .next (r := c :: cs) hv rfl ?_
  rw [skip_cons hspace]
  exact hvs

/-- An array of texts with commas between them. -/
theorem reads_joined {texts : List (List Char)} (hne : texts ≠ [])
    (h : List.Forall₂ (fun x v => ∀ rest, Stops rest → Reads (x ++ rest) v rest) texts vs) :
    ReadsItems ([','].intercalate texts ++ ']' :: t) vs t := by
  induction h with
  | nil => exact absurd rfl hne
  | @cons x v texts vs hx hrest ih =>
    cases hrest with
    | nil =>
      rw [List.intercalate_singleton]
      exact .last (hx (']' :: t) (by simp [Stops])) rfl
    | cons =>
      rw [List.intercalate_cons_cons, List.append_assoc, List.append_assoc]
      exact reads_nextItem (hx _ (by simp [Stops])) (ih (by simp))

end Compact

end AdvFoundry.Json
