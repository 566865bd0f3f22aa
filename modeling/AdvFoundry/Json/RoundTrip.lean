import AdvFoundry.Json.Basic

/-!
# Reading what was written

A value whose strings need no escape and whose numbers are natural numbers is read
back from its rendering (`parse_render`). The induction is on the fuel, with one
statement for values, one for the items of an array and one for the members of an
object. A number has to end where its digits do, so the statement for values says
what may follow.

Below that: the rendering of an array or an object as a program puts it together
from pieces (`joined`), the names in a path, and the members that stand at numbers.
-/

namespace AdvFoundry.Json

/-- Strings without escapes, and numbers that are decimals of natural numbers. -/
inductive Plain : Json → Prop
  | null : Plain null
  | bool (b : Bool) : Plain (bool b)
  | nat (n : Nat) : Plain (number (Nat.toDigits 10 n))
  | string {t : List Char} : (∀ c ∈ t, isPlain c = true) → Plain (string t)
  | array {vs : List Json} : (∀ v ∈ vs, Plain v) → Plain (array vs)
  | object {ms : List (List Char × Json)} :
      (∀ m ∈ ms, ∀ c ∈ m.1, isPlain c = true) → (∀ m ∈ ms, Plain m.2) → Plain (object ms)

/-- What may follow a number. -/
def Stops : List Char → Prop
  | [] => True
  | c :: _ => c.isDigit = false ∧ c ≠ '.' ∧ c ≠ 'e' ∧ c ≠ 'E'

/-! ## Tokens -/

section Tokens

variable {n : Nat} {ds rest t : List Char}

theorem isDigit_of_mem {c : Char} (hc : c ∈ Nat.toDigits 10 n) : c.isDigit = true :=
  Nat.isDigit_of_mem_toDigits (by decide) (by decide) hc

theorem toDigits_cons (n : Nat) : ∃ c cs, Nat.toDigits 10 n = c :: cs ∧ c.isDigit = true := by
  cases hdigits : Nat.toDigits 10 n with
  | nil => exact absurd hdigits Nat.toDigits_ne_nil
  | cons c cs => exact ⟨c, cs, rfl, isDigit_of_mem (hdigits ▸ List.mem_cons_self)⟩

theorem isPlain_of_isDigit {c : Char} (hc : c.isDigit = true) : isPlain c = true := by
  have hge : 48 ≤ c.toNat := (Char.isDigit_iff_toNat.mp hc).1
  rw [isPlain, Bool.not_eq_true']
  simp only [Bool.or_eq_false_iff, beq_eq_false_iff_ne, decide_eq_false_iff_not, Nat.not_lt]
  refine ⟨⟨?_, ?_⟩, Nat.le_trans (by decide) hge⟩
  · rintro rfl
    exact absurd hc (by decide)
  · rintro rfl
    exact absurd hc (by decide)

/-- The decimal of a positive number does not begin with a zero. -/
theorem toDigits_head (h : 0 < n) : ∀ ds, Nat.toDigits 10 n ≠ '0' :: ds := by
  induction n using Nat.strongRecOn with
  | ind n ih =>
    intro ds heq
    rcases Nat.lt_or_ge n 10 with hlt | hge
    · rw [Nat.toDigits_of_lt_base hlt] at heq
      have hdigit : ∀ m < 10, 0 < m → m.digitChar ≠ '0' := by decide
      exact hdigit n hlt h (List.cons.inj heq).1
    · rw [Nat.toDigits_of_base_le (by decide) hge] at heq
      cases hrest : Nat.toDigits 10 (n / 10) with
      | nil => exact Nat.toDigits_ne_nil hrest
      | cons c cs =>
        rw [hrest, List.cons_append] at heq
        rw [(List.cons.inj heq).1] at hrest
        exact ih (n / 10) (by omega) (by omega) cs hrest

theorem digits_append (hne : ds ≠ []) (hds : ∀ c ∈ ds, c.isDigit = true) (hrest : Stops rest) :
    digits (ds ++ rest) = some (ds, rest) := by
  have htake : rest.takeWhile Char.isDigit = [] := by
    cases rest with
    | nil => rfl
    | cons c cs => exact List.takeWhile_cons_of_neg (by simp [hrest.1])
  have hdrop : rest.dropWhile Char.isDigit = rest := by
    cases rest with
    | nil => rfl
    | cons c cs => exact List.dropWhile_cons_of_neg (by simp [hrest.1])
  unfold digits
  rw [List.takeWhile_append_of_pos hds, List.dropWhile_append_of_pos hds, htake, hdrop,
    List.append_nil]
  cases ds with
  | nil => exact absurd rfl hne
  | cons c cs => rfl

theorem fraction_stop (hrest : Stops rest) : fraction rest = some ([], rest) := by
  unfold fraction
  split
  · exact absurd rfl hrest.2.1
  · rfl

theorem exponent_stop (hrest : Stops rest) : exponent rest = some ([], rest) := by
  cases rest with
  | nil => rfl
  | cons c cs =>
    obtain ⟨-, -, he, hE⟩ := hrest
    simp [exponent, he, hE]

/-- The decimal of a natural number is read as a whole. -/
theorem numeral_nat (n : Nat) (hrest : Stops rest) :
    numeral (Nat.toDigits 10 n ++ rest) = some (Nat.toDigits 10 n, rest) := by
  obtain ⟨c, ds, hdigits, hdigit⟩ := toDigits_cons n
  have hinteger : integer (Nat.toDigits 10 n ++ rest) = some (Nat.toDigits 10 n, rest) := by
    rcases Nat.eq_zero_or_pos n with rfl | hpos
    · rfl
    · unfold integer
      split
      · next cs heq =>
        rw [hdigits, List.cons_append] at heq
        rw [(List.cons.inj heq).1] at hdigits
        exact absurd hdigits (toDigits_head hpos ds)
      · exact digits_append Nat.toDigits_ne_nil (fun c => isDigit_of_mem) hrest
  have hsign : sign false (Nat.toDigits 10 n ++ rest) = ([], Nat.toDigits 10 n ++ rest) := by
    rw [hdigits]
    unfold sign
    split
    · next heq =>
      rw [(List.cons.inj heq).1] at hdigit
      exact absurd hdigit (by decide)
    · next heq =>
      rw [(List.cons.inj heq).1] at hdigit
      exact absurd hdigit (by decide)
    · rfl
  simp only [numeral, hsign, hinteger, fraction_stop hrest, exponent_stop hrest,
    Option.bind_eq_bind, Option.bind_some, List.nil_append, List.append_nil]

/-- A plain text is read up to its closing quote. -/
theorem text_append (ht : ∀ c ∈ t, isPlain c = true) :
    text (t ++ '"' :: rest) = some (t, rest) := by
  induction t with
  | nil => rfl
  | cons c t ih =>
    have hc := ht c List.mem_cons_self
    have hrest := ih fun x hx => ht x (List.mem_cons_of_mem _ hx)
    rw [List.cons_append, text.eq_def]
    split
    · next heq => cases heq
    · next heq =>
      rw [(List.cons.inj heq).1] at hc
      exact absurd hc (by decide)
    · next heq =>
      rw [(List.cons.inj heq).1] at hc
      exact absurd hc (by decide)
    · next heq =>
      rw [(List.cons.inj heq).1] at hc
      exact absurd hc (by decide)
    · next heq =>
      obtain ⟨rfl, rfl⟩ := List.cons.inj heq
      rw [if_pos hc, hrest]
      rfl

theorem skip_cons {c : Char} {cs : List Char} (hc : isSpace c = false) : skip (c :: cs) = c :: cs :=
  List.dropWhile_cons_of_neg (by simp [hc])

theorem skip_blank {c : Char} {cs : List Char} (hc : isSpace c = false) :
    skip (' ' :: c :: cs) = c :: cs :=
  skip_cons hc

theorem isSpace_of_isDigit {c : Char} (hc : c.isDigit = true) : isSpace c = false := by
  by_contra hspace
  simp only [isSpace, Bool.or_eq_true, beq_iff_eq, Bool.not_eq_false] at hspace
  rcases hspace with ((rfl | rfl) | rfl) | rfl <;> exact absurd hc (by decide)

end Tokens

/-! ## Values -/

section Values

variable {v : Json} {vs : List Json} {ms : List (List Char × Json)} {k rest : List Char} {n : Nat}

/-- No rendering begins with white space or like the end of an array. -/
theorem render_head (hv : Plain v) :
    ∃ c cs, render v = c :: cs ∧ isSpace c = false ∧ c ≠ ']' := by
  cases hv with
  | null => exact ⟨_, _, rfl, by decide, by decide⟩
  | bool b => cases b <;> exact ⟨_, _, rfl, by decide, by decide⟩
  | nat n =>
    obtain ⟨c, cs, hdigits, hdigit⟩ := toDigits_cons n
    refine ⟨c, cs, by rw [render, hdigits], ?_, ?_⟩
    · exact isSpace_of_isDigit hdigit
    · rintro rfl
      exact absurd hdigit (by decide)
  | string ht => exact ⟨_, _, rfl, by decide, by decide⟩
  | array hvs => exact ⟨_, _, rfl, by decide, by decide⟩
  | object hks hvs => exact ⟨_, _, rfl, by decide, by decide⟩

theorem renderItems_two (v w : Json) (vs : List Json) :
    renderItems (v :: w :: vs) = render v ++ ',' :: ' ' :: renderItems (w :: vs) := by
  rw [renderItems, List.append_assoc]
  · rfl
  · simp

theorem renderMembers_one (k : List Char) (v : Json) :
    renderMembers [(k, v)] = '"' :: (k ++ '"' :: ':' :: ' ' :: render v) := by
  rw [renderMembers, List.append_assoc]
  rfl

theorem renderMembers_two (k : List Char) (v : Json) (m : List Char × Json)
    (ms : List (List Char × Json)) :
    renderMembers ((k, v) :: m :: ms) =
      '"' :: (k ++ '"' :: ':' :: ' ' :: (render v ++ ',' :: ' ' :: renderMembers (m :: ms))) := by
  rw [renderMembers, List.append_assoc, List.append_assoc, List.append_assoc]
  · rfl
  · simp

theorem renderItems_cons (v : Json) (vs : List Json) :
    ∃ cs, renderItems (v :: vs) = render v ++ cs := by
  cases vs with
  | nil => exact ⟨[], by rw [renderItems, List.append_nil]⟩
  | cons w vs => exact ⟨_, renderItems_two v w vs⟩

theorem renderMembers_cons (m : List Char × Json) (ms : List (List Char × Json)) :
    ∃ cs, renderMembers (m :: ms) = '"' :: cs := by
  obtain ⟨k, v⟩ := m
  cases ms with
  | nil => exact ⟨_, renderMembers_one k v⟩
  | cons m' ms => exact ⟨_, renderMembers_two k v m' ms⟩

/-! What fuel `n` is enough for. -/

def ValuesRead (n : Nat) : Prop :=
  ∀ v rest, Plain v → (render v).length ≤ n → Stops rest →
    value n (render v ++ rest) = some (v, rest)

def ItemsRead (n : Nat) : Prop :=
  ∀ v vs rest, (∀ u ∈ v :: vs, Plain u) → (renderItems (v :: vs)).length < n →
    items n (renderItems (v :: vs) ++ ']' :: rest) = some (v :: vs, rest)

def MembersRead (n : Nat) : Prop :=
  ∀ m ms rest, (∀ m' ∈ m :: ms, ∀ c ∈ m'.1, isPlain c = true) → (∀ m' ∈ m :: ms, Plain m'.2) →
    (renderMembers (m :: ms)).length < n →
    members n (renderMembers (m :: ms) ++ '}' :: rest) = some (m :: ms, rest)

/-- A text that begins with a digit is read as a number. -/
theorem value_digit {c : Char} {cs : List Char} (hc : c.isDigit = true) :
    value (n + 1) (c :: cs) = (numeral (c :: cs)).map fun p => (number p.1, p.2) := by
  have hne {x : Char} (hx : x.isDigit = false) : c ≠ x := by
    rintro rfl
    rw [hc] at hx
    cases hx
  have hlast : value (n + 1) (c :: cs) =
      (numeral (c :: cs)).bind fun p => some (number p.1, p.2) := by
    rw [value.eq_def]
    simp only
    split
    · next heq => exact absurd (List.cons.inj heq).1 (hne (by decide))
    · next heq => exact absurd (List.cons.inj heq).1 (hne (by decide))
    · next heq => exact absurd (List.cons.inj heq).1 (hne (by decide))
    · next heq => exact absurd (List.cons.inj heq).1 (hne (by decide))
    · next heq => exact absurd (List.cons.inj heq).1 (hne (by decide))
    · next heq => exact absurd (List.cons.inj heq).1 (hne (by decide))
    · rfl
  rw [hlast]
  cases numeral (c :: cs) <;> rfl

/-- An array that does not end at once has items. -/
theorem value_array {c : Char} {cs : List Char} (hspace : isSpace c = false) (hend : c ≠ ']') :
    value (n + 1) ('[' :: c :: cs) = (items n (c :: cs)).map fun p => (array p.1, p.2) := by
  rw [value, skip_cons hspace]
  split
  · next heq => exact absurd (List.cons.inj heq).1 hend
  · cases items n (c :: cs) <;> rfl

theorem value_object {cs : List Char} :
    value (n + 1) ('{' :: '"' :: cs) = (members n ('"' :: cs)).map fun p => (object p.1, p.2) := by
  rw [value, skip_cons (by decide)]
  split
  · next heq => exact absurd (List.cons.inj heq).1 (by decide)
  · cases members n ('"' :: cs) <;> rfl

/-- After a value: the end of the array, or the next one. -/
theorem items_end (hvalue : value n (render v ++ ']' :: rest) = some (v, ']' :: rest)) :
    items (n + 1) (render v ++ ']' :: rest) = some ([v], rest) := by
  rw [items, hvalue]
  rfl

theorem items_comma {c : Char} {cs : List Char} (hspace : isSpace c = false)
    (hvalue : value n (render v ++ ',' :: ' ' :: c :: cs) = some (v, ',' :: ' ' :: c :: cs)) :
    items (n + 1) (render v ++ ',' :: ' ' :: c :: cs) =
      (items n (c :: cs)).map fun p => (v :: p.1, p.2) := by
  rw [items, hvalue]
  show (items n (skip (' ' :: c :: cs))).bind (fun p => some (v :: p.1, p.2)) = _
  rw [skip_blank hspace]
  cases items n (c :: cs) <;> rfl

/-- A member: its key, its value, and then the end of the object or the next. -/
theorem members_end (hk : ∀ c ∈ k, isPlain c = true) {c : Char} {cs : List Char}
    (hspace : isSpace c = false) (hvalue : value n (c :: cs) = some (v, '}' :: rest)) :
    members (n + 1) ('"' :: (k ++ '"' :: ':' :: ' ' :: c :: cs)) = some ([(k, v)], rest) := by
  have hcolon : skip (':' :: ' ' :: c :: cs) = ':' :: ' ' :: c :: cs := rfl
  rw [members, text_append hk]
  simp only [Option.bind_eq_bind, Option.bind_some, hcolon, skip_blank hspace, hvalue]
  rfl

theorem members_comma (hk : ∀ c ∈ k, isPlain c = true) {c d : Char} {cs ds : List Char}
    (hspace : isSpace c = false) (hspace' : isSpace d = false)
    (hvalue : value n (c :: cs) = some (v, ',' :: ' ' :: d :: ds)) :
    members (n + 1) ('"' :: (k ++ '"' :: ':' :: ' ' :: c :: cs)) =
      (members n (d :: ds)).map fun p => ((k, v) :: p.1, p.2) := by
  have hcolon : skip (':' :: ' ' :: c :: cs) = ':' :: ' ' :: c :: cs := rfl
  rw [members, text_append hk]
  simp only [Option.bind_eq_bind, Option.bind_some, hcolon, skip_blank hspace, hvalue]
  show (members n (skip (' ' :: d :: ds))).bind (fun p => some ((k, v) :: p.1, p.2)) = _
  rw [skip_blank hspace']
  cases members n (d :: ds) <;> rfl

theorem values_step (hitems : ItemsRead n) (hmembers : MembersRead n) : ValuesRead (n + 1) := by
  intro v rest hv hlen hrest
  cases hv with
  | null => rfl
  | bool b => cases b <;> rfl
  | nat m =>
    have hnumeral := numeral_nat m hrest
    obtain ⟨c, cs, hdigits, hdigit⟩ := toDigits_cons m
    rw [hdigits] at hnumeral
    rw [render, hdigits, List.cons_append, value_digit hdigit, ← List.cons_append, hnumeral]
    rfl
  | @string t ht =>
    have htext := @text_append rest t ht
    rw [render, List.cons_append, List.append_assoc]
    show (text (t ++ '"' :: rest)).bind (fun p => some (Json.string p.1, p.2)) = _
    rw [htext]
    rfl
  | @array vs hvs =>
    cases vs with
    | nil => rfl
    | cons v vs =>
      have hread := hitems v vs rest hvs (by
        rw [render, List.length_cons, List.length_append] at hlen
        exact Nat.le_of_succ_le_succ hlen)
      obtain ⟨c, cs, hcs, hspace, hend⟩ := render_head (hvs v List.mem_cons_self)
      obtain ⟨tail, htail⟩ := renderItems_cons v vs
      rw [render, List.cons_append, List.append_assoc]
      show value (n + 1) ('[' :: (renderItems (v :: vs) ++ ']' :: rest)) = _
      rw [htail, hcs, List.cons_append, List.cons_append] at hread ⊢
      rw [value_array hspace hend, hread]
      rfl
  | @object ms hks hvs =>
    cases ms with
    | nil => rfl
    | cons m ms =>
      have hread := hmembers m ms rest hks hvs (by
        rw [render, List.length_cons, List.length_append] at hlen
        exact Nat.le_of_succ_le_succ hlen)
      obtain ⟨cs, hcs⟩ := renderMembers_cons m ms
      rw [render, List.cons_append, List.append_assoc]
      show value (n + 1) ('{' :: (renderMembers (m :: ms) ++ '}' :: rest)) = _
      rw [hcs, List.cons_append] at hread ⊢
      rw [value_object, hread]
      rfl

theorem items_step (hvalues : ValuesRead n) (hitems : ItemsRead n) : ItemsRead (n + 1) := by
  intro v vs rest hplain hlen
  have hv := hplain v List.mem_cons_self
  cases vs with
  | nil =>
    rw [renderItems] at hlen ⊢
    exact items_end (hvalues v _ hv (Nat.le_of_lt_succ hlen) (by simp [Stops]))
  | cons w vs =>
    rw [renderItems_two, List.length_append, List.length_cons, List.length_cons] at hlen
    have hrest := hitems w vs rest (fun u hu => hplain u (List.mem_cons_of_mem _ hu)) (by omega)
    obtain ⟨c, cs, hcs, hspace, -⟩ :=
      render_head (hplain w (List.mem_cons_of_mem _ List.mem_cons_self))
    obtain ⟨tail, htail⟩ := renderItems_cons w vs
    rw [renderItems_two, List.append_assoc, List.cons_append, List.cons_append]
    rw [htail, hcs, List.cons_append, List.cons_append] at hrest ⊢
    rw [items_comma hspace (hvalues v _ hv (by omega) (by simp [Stops])), hrest]
    rfl

theorem members_step (hvalues : ValuesRead n) (hmembers : MembersRead n) : MembersRead (n + 1) := by
  rintro ⟨k, v⟩ ms rest hkeys hplain hlen
  have hk := hkeys (k, v) List.mem_cons_self
  have hv := hplain (k, v) List.mem_cons_self
  obtain ⟨c, cs, hcs, hspace, -⟩ := render_head hv
  cases ms with
  | nil =>
    rw [renderMembers_one] at hlen ⊢
    simp only [List.length_cons, List.length_append] at hlen
    have hvalue := hvalues v ('}' :: rest) hv (by omega) (by simp [Stops])
    simp only [List.cons_append, List.append_assoc]
    rw [hcs, List.cons_append] at hvalue ⊢
    exact members_end hk hspace hvalue
  | cons m ms =>
    rw [renderMembers_two] at hlen ⊢
    simp only [List.length_cons, List.length_append] at hlen
    have hrest := hmembers m ms rest (fun m' hm' => hkeys m' (List.mem_cons_of_mem _ hm'))
      (fun m' hm' => hplain m' (List.mem_cons_of_mem _ hm')) (by omega)
    obtain ⟨tail, htail⟩ := renderMembers_cons m ms
    have hvalue := hvalues v (',' :: ' ' :: (renderMembers (m :: ms) ++ '}' :: rest)) hv (by omega)
      (by simp [Stops])
    simp only [List.cons_append, List.append_assoc]
    rw [htail, List.cons_append] at hrest hvalue ⊢
    rw [hcs, List.cons_append] at hvalue ⊢
    rw [members_comma hk hspace (by decide) hvalue, hrest]
    rfl

theorem all_read (n : Nat) : ValuesRead n ∧ ItemsRead n ∧ MembersRead n := by
  induction n with
  | zero =>
    refine ⟨fun v rest hv hlen _ => ?_, fun v vs rest _ hlen => ?_, fun m ms rest _ _ hlen => ?_⟩
    · obtain ⟨c, cs, hcs, -⟩ := render_head hv
      rw [hcs] at hlen
      cases hlen
    · exact absurd hlen (Nat.not_lt_zero _)
    · exact absurd hlen (Nat.not_lt_zero _)
  | succ n ih =>
    obtain ⟨hvalues, hitems, hmembers⟩ := ih
    exact ⟨values_step hitems hmembers, items_step hvalues hitems, members_step hvalues hmembers⟩

end Values

/-- A plain value is read back from its rendering. -/
theorem parse_render {v : Json} (hv : Plain v) {json : String} (h : json.toList = render v) :
    parse json = some v := by
  obtain ⟨c, cs, hcs, hspace, -⟩ := render_head hv
  have hskip : skip json.toList = render v := by
    rw [h, hcs, skip_cons hspace]
  have hfuel : (render v).length ≤ json.toList.length + 1 := by
    rw [h]
    exact Nat.le_succ _
  have hread := (all_read (json.toList.length + 1)).1 v [] hv hfuel trivial
  rw [List.append_nil] at hread
  rw [parse, hskip, hread]
  rfl

/-! ## Writing by pieces -/

/-- The pieces with a comma and a blank between them. -/
def joined : List String → String
  | [] => ""
  | [s] => s
  | s :: ss => s ++ ", " ++ joined ss

theorem joined_two (s s' : String) (ss : List String) :
    joined (s :: s' :: ss) = s ++ ", " ++ joined (s' :: ss) := by
  rw [joined]
  simp

theorem joined_items {ss : List String} {vs : List Json}
    (h : ss.map String.toList = vs.map render) : (joined ss).toList = renderItems vs := by
  induction ss generalizing vs with
  | nil =>
    cases vs with
    | nil => rfl
    | cons v vs => cases h
  | cons s ss ih =>
    cases vs with
    | nil => cases h
    | cons v vs =>
      obtain ⟨hs, hss⟩ := List.cons.inj h
      have hrest := ih hss
      cases ss with
      | nil =>
        cases vs with
        | nil => rw [joined, renderItems, hs]
        | cons w vs => cases hss
      | cons s' ss =>
        cases vs with
        | nil => cases hss
        | cons w vs =>
          rw [joined_two, renderItems_two, String.toList_append, String.toList_append, hs, hrest,
            List.append_assoc]
          rfl

/-- The piece of a member. -/
def renderMember (m : List Char × Json) : List Char :=
  '"' :: (m.1 ++ '"' :: ':' :: ' ' :: render m.2)

theorem joined_members {ss : List String} {ms : List (List Char × Json)}
    (h : ss.map String.toList = ms.map renderMember) : (joined ss).toList = renderMembers ms := by
  induction ss generalizing ms with
  | nil =>
    cases ms with
    | nil => rfl
    | cons m ms => cases h
  | cons s ss ih =>
    cases ms with
    | nil => cases h
    | cons m ms =>
      obtain ⟨hs, hss⟩ := List.cons.inj h
      have hrest := ih hss
      obtain ⟨k, v⟩ := m
      cases ss with
      | nil =>
        cases ms with
        | nil => rw [joined, renderMembers_one, hs, renderMember]
        | cons m ms => cases hss
      | cons s' ss =>
        cases ms with
        | nil => cases hss
        | cons m ms =>
          rw [joined_two, renderMembers_two, String.toList_append, String.toList_append, hs, hrest,
            renderMember]
          simp

/-! ## Looking up -/

theorem splitOn_dots {k : List Char} {ks : List (List Char)} (hk : '.' ∉ k)
    (hks : ∀ k' ∈ ks, '.' ∉ k') : (k ++ ks.flatMap ('.' :: ·)).splitOn '.' = k :: ks := by
  induction ks generalizing k with
  | nil => rw [List.flatMap_nil, List.append_nil, List.splitOn_eq_singleton hk]
  | cons k' ks ih =>
    rw [List.flatMap_cons, List.cons_append, List.splitOn_append_cons_self,
      List.splitOn_eq_singleton hk,
      ih (hks k' List.mem_cons_self) fun x hx => hks x (List.mem_cons_of_mem _ hx)]
    rfl

/-- The names of a path are those it was put together from. -/
theorem names_eq {path : String} {keys : List (List Char)} (hkeys : ∀ k ∈ keys, '.' ∉ k)
    (h : path.toList = keys.flatMap ('.' :: ·)) : names path = keys := by
  have hsplit := splitOn_dots (k := []) List.not_mem_nil hkeys
  rw [List.nil_append, ← h] at hsplit
  rw [names, hsplit]
  rfl

theorem valueAt_eq {json path : String} {v : Json} {keys : List (List Char)}
    (hparse : parse json = some v) (hkeys : names path = keys) :
    valueAt json path = keys.foldlM (fun v key => member key v) v := by
  rw [valueAt, hparse, hkeys]
  rfl

theorem toDigits_injective : Function.Injective (Nat.toDigits 10) := by
  intro m n h
  have hm := @Nat.ofDigitChars_ten_toDigits m
  rw [h, Nat.ofDigitChars_ten_toDigits] at hm
  exact hm.symm

/-- The member at the name of an index. -/
theorem lookup_mapIdx {α β κ : Type} [BEq κ] [LawfulBEq κ] {key : Nat → κ} {f : α → β}
    (hkey : Function.Injective key) (l : List α) (i : Nat) :
    (l.mapIdx fun i a => (key i, f a)).lookup (key i) = l[i]?.map f := by
  induction l generalizing key i with
  | nil => rfl
  | cons a l ih =>
    rw [List.mapIdx_cons]
    cases i with
    | zero => rw [List.lookup_cons_self, List.getElem?_cons_zero, Option.map_some]
    | succ i =>
      have hne : (key (i + 1) == key 0) = false :=
        beq_false_of_ne fun h => absurd (hkey h) (Nat.succ_ne_zero i)
      rw [List.lookup_cons, hne, List.getElem?_cons_succ]
      exact @ih (fun i => key (i + 1)) (fun i j h => Nat.succ.inj (hkey h)) i

end AdvFoundry.Json
