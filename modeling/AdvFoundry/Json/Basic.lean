import Mathlib.Data.List.Basic

/-!
# JSON texts

The grammar of JSON as a parser on characters: white space between tokens, the
three literals, numbers, strings with escapes, arrays and objects. A number is
kept as it is written. An escaped code unit that is a surrogate is refused; the
characters beyond the basic plane are read when they stand for themselves.

The parser takes fuel, and the length of the text is enough of it: every call but
the last has read a character.

`render` writes a value the way it is written by hand, with a blank after commas
and colons and without escapes. `valueAt` looks a value up by the names on the way to
it, joined with dots.
-/

namespace AdvFoundry

/-- A JSON value. -/
inductive Json
  | null
  | bool (b : Bool)
  | number (lexeme : List Char)
  | string (text : List Char)
  | array (items : List Json)
  | object (members : List (List Char × Json))

namespace Json

/-! ## Tokens -/

def isSpace (c : Char) : Bool := c == ' ' || c == '\t' || c == '\n' || c == '\r'

def skip (cs : List Char) : List Char := cs.dropWhile isSpace

/-- The value of a hexadecimal digit. -/
def hexDigit (c : Char) : Option Nat :=
  if c.isDigit then some (c.toNat - '0'.toNat)
  else if 'a' ≤ c ∧ c ≤ 'f' then some (c.toNat - 'a'.toNat + 10)
  else if 'A' ≤ c ∧ c ≤ 'F' then some (c.toNat - 'A'.toNat + 10)
  else none

/-- The character of four hexadecimal digits. -/
def codeUnit (a b c d : Char) : Option Char := do
  let n := ((← hexDigit a) * 16 + (← hexDigit b)) * 256 + (← hexDigit c) * 16 + (← hexDigit d)
  if n.isValidChar then some (Char.ofNat n) else none

/-- The character of an escape of one letter. -/
def escaped : Char → Option Char
  | '"' => some '"'
  | '\\' => some '\\'
  | '/' => some '/'
  | 'b' => some '\x08'
  | 'f' => some '\x0c'
  | 'n' => some '\n'
  | 'r' => some '\r'
  | 't' => some '\t'
  | _ => none

/-- A character that a string may hold as it is. -/
def isPlain (c : Char) : Bool := !(c == '"' || c == '\\' || c.toNat < 0x20)

/-- The rest of a string after its opening quote. -/
def text : List Char → Option (List Char × List Char)
  | [] => none
  | '"' :: cs => some ([], cs)
  | '\\' :: 'u' :: a :: b :: c :: d :: cs => do
    let x ← codeUnit a b c d
    let (xs, cs) ← text cs
    some (x :: xs, cs)
  | '\\' :: c :: cs => do
    let x ← escaped c
    let (xs, cs) ← text cs
    some (x :: xs, cs)
  | c :: cs => do
    if isPlain c then
      let (xs, cs) ← text cs
      some (c :: xs, cs)
    else none

/-- One digit or more. -/
def digits (cs : List Char) : Option (List Char × List Char) :=
  match cs.takeWhile Char.isDigit with
  | [] => none
  | ds => some (ds, cs.dropWhile Char.isDigit)

/-- The integer of a number: no further digit follows a leading zero. -/
def integer : List Char → Option (List Char × List Char)
  | '0' :: cs => some (['0'], cs)
  | cs => digits cs

def fraction : List Char → Option (List Char × List Char)
  | '.' :: cs => do
    let (ds, cs) ← digits cs
    some ('.' :: ds, cs)
  | cs => some ([], cs)

def sign (plus : Bool) : List Char → List Char × List Char
  | '-' :: cs => (['-'], cs)
  | '+' :: cs => if plus then (['+'], cs) else ([], '+' :: cs)
  | cs => ([], cs)

def exponent : List Char → Option (List Char × List Char)
  | [] => some ([], [])
  | c :: cs =>
    if c == 'e' || c == 'E' then do
      let (s, cs) := sign true cs
      let (ds, cs) ← digits cs
      some (c :: (s ++ ds), cs)
    else some ([], c :: cs)

def numeral (cs : List Char) : Option (List Char × List Char) := do
  let (s, cs) := sign false cs
  let (i, cs) ← integer cs
  let (f, cs) ← fraction cs
  let (e, cs) ← exponent cs
  some (s ++ i ++ f ++ e, cs)

/-! ## Values -/

mutual

/-- A value, from its first character on. -/
def value : Nat → List Char → Option (Json × List Char)
  | 0, _ => none
  | n + 1, cs =>
    match cs with
    | '{' :: cs =>
      match skip cs with
      | '}' :: cs => some (.object [], cs)
      | cs => do
        let (ms, cs) ← members n cs
        some (.object ms, cs)
    | '[' :: cs =>
      match skip cs with
      | ']' :: cs => some (.array [], cs)
      | cs => do
        let (vs, cs) ← items n cs
        some (.array vs, cs)
    | '"' :: cs => do
      let (t, cs) ← text cs
      some (.string t, cs)
    | 'n' :: 'u' :: 'l' :: 'l' :: cs => some (.null, cs)
    | 't' :: 'r' :: 'u' :: 'e' :: cs => some (.bool true, cs)
    | 'f' :: 'a' :: 'l' :: 's' :: 'e' :: cs => some (.bool false, cs)
    | cs => do
      let (l, cs) ← numeral cs
      some (.number l, cs)

/-- The items of an array that is not empty, and the end of the array. -/
def items : Nat → List Char → Option (List Json × List Char)
  | 0, _ => none
  | n + 1, cs => do
    let (v, cs) ← value n cs
    match skip cs with
    | ']' :: cs => some ([v], cs)
    | ',' :: cs => do
      let (vs, cs) ← items n (skip cs)
      some (v :: vs, cs)
    | _ => none

/-- The members of an object that is not empty, and the end of the object. -/
def members : Nat → List Char → Option (List (List Char × Json) × List Char)
  | n + 1, '"' :: cs => do
    let (k, cs) ← text cs
    match skip cs with
    | ':' :: cs => do
      let (v, cs) ← value n (skip cs)
      match skip cs with
      | '}' :: cs => some ([(k, v)], cs)
      | ',' :: cs => do
        let (ms, cs) ← members n (skip cs)
        some ((k, v) :: ms, cs)
      | _ => none
    | _ => none
  | _, _ => none

end

/-- A text that is one value. -/
def parse (json : String) : Option Json := do
  let (v, cs) ← value (json.toList.length + 1) (skip json.toList)
  if skip cs = [] then some v else none

/-! ## Writing -/

mutual

def render : Json → List Char
  | null => ['n', 'u', 'l', 'l']
  | bool true => ['t', 'r', 'u', 'e']
  | bool false => ['f', 'a', 'l', 's', 'e']
  | number lexeme => lexeme
  | string text => '"' :: (text ++ ['"'])
  | array items => '[' :: (renderItems items ++ [']'])
  | object members => '{' :: (renderMembers members ++ ['}'])

def renderItems : List Json → List Char
  | [] => []
  | [v] => render v
  | v :: vs => render v ++ [',', ' '] ++ renderItems vs

def renderMembers : List (List Char × Json) → List Char
  | [] => []
  | [(k, v)] => '"' :: (k ++ ['"', ':', ' '] ++ render v)
  | (k, v) :: ms => '"' :: (k ++ ['"', ':', ' '] ++ render v ++ [',', ' '] ++ renderMembers ms)

end

/-! ## Looking up -/

def member (key : List Char) : Json → Option Json
  | object members => members.lookup key
  | _ => none

/-- The names in a path: what stands between its dots, after the first. -/
def names (path : String) : List (List Char) := (path.toList.splitOn '.').tail

/-- The value at a path such as `.a.b`. -/
def valueAt (json path : String) : Option Json := do
  let v ← parse json
  (names path).foldlM (fun v key => member key v) v

end Json

end AdvFoundry
