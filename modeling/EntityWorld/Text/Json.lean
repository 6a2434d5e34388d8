import EntityWorld.Text.Hex
set_option autoImplicit false

/-!
Reading Json. Of a number only a plain natural number is kept; a text whose escapes do not make
sense is read over and has no value. Members of an object keep their order and may repeat.
-/
namespace EntityWorld.Text

inductive Json where
  | null
  | bool (b : Bool)
  | number (natural? : Option Nat)
  | string (text? : Option String)
  | array (items : List Json)
  | object (members : List (Option String × Json))

namespace Json

def isBlank (c : Char) : Bool := c == ' ' || c == '\n' || c == '\t' || c == '\r'

def skipBlanks (cs : List Char) : List Char := cs.dropWhile isBlank

def hex4? : List Char → Option (Nat × List Char)
  | a :: b :: c :: d :: rest => do
    let a ← hexValue? a
    let b ← hexValue? b
    let c ← hexValue? c
    let d ← hexValue? d
    return (((a * 16 + b) * 16 + c) * 16 + d, rest)
  | _ => none

def escaped? : Char → Option Char
  | '"' => some '"'
  | '\\' => some '\\'
  | '/' => some '/'
  | 'b' => some '\x08'
  | 'f' => some '\x0c'
  | 'n' => some '\n'
  | 'r' => some '\r'
  | 't' => some '\t'
  | _ => none

/-- A piece of a text: a character, or half of a character in two escapes. -/
inductive Unit16 where
  | char (c : Char)
  | high (n : Nat)
  | low (n : Nat)

/-- Put the halves together; `none` if one stands alone. -/
def joinUnits : List Unit16 → Option (List Char)
  | [] => some []
  | .char c :: rest => (joinUnits rest).map (c :: ·)
  | .high h :: .low l :: rest =>
    (joinUnits rest).map (Char.ofNat (0x10000 + (h - 0xd800) * 0x400 + (l - 0xdc00)) :: ·)
  | .high _ :: _ => none
  | .low _ :: _ => none

def unitOf (n : Nat) : Unit16 :=
  if 0xd800 ≤ n ∧ n ≤ 0xdbff then .high n
  else if 0xdc00 ≤ n ∧ n ≤ 0xdfff then .low n
  else .char (Char.ofNat n)

/-- The rest of a text after its opening quote, up to and without the closing one; at most `fuel`
pieces. -/
def units? : Nat → List Char → Option (List Unit16 × List Char)
  | 0, _ => none
  | _, [] => none
  | _, '"' :: rest => some ([], rest)
  | fuel + 1, '\\' :: 'u' :: rest => do
    let (n, rest) ← hex4? rest
    let (us, rest) ← units? fuel rest
    return (unitOf n :: us, rest)
  | fuel + 1, '\\' :: c :: rest => do
    let c ← escaped? c
    let (us, rest) ← units? fuel rest
    return (.char c :: us, rest)
  | _, ['\\'] => none
  | fuel + 1, c :: rest =>
    if c.toNat < 0x20 then none
    else do
      let (us, rest) ← units? fuel rest
      return (.char c :: us, rest)

def text? (cs : List Char) : Option (Option String × List Char) := do
  let (us, rest) ← units? (cs.length + 1) cs
  return ((joinUnits us).map String.ofList, rest)

def digits? (cs : List Char) : Option (List Char × List Char) :=
  let ds := cs.takeWhile Char.isDigit
  if ds.isEmpty then none else some (ds, cs.drop ds.length)

def fraction? (cs : List Char) : Option (Bool × List Char) :=
  match cs with
  | '.' :: rest => (digits? rest).map fun p => (true, p.2)
  | _ => some (false, cs)

def exponent? (cs : List Char) : Option (Bool × List Char) :=
  match cs with
  | c :: rest =>
    if c == 'e' || c == 'E' then
      let rest :=
        match rest with
        | '+' :: more => more
        | '-' :: more => more
        | _ => rest
      (digits? rest).map fun p => (true, p.2)
    else some (false, cs)
  | [] => some (false, [])

def unsigned? (cs : List Char) : Option (Option Nat × List Char) := do
  let (ds, rest) ← digits? cs
  if ds.head? == some '0' && ds.length ≠ 1 then none
  let (hasFraction, rest) ← fraction? rest
  let (hasExponent, rest) ← exponent? rest
  if hasFraction || hasExponent then return (none, rest)
  return (some (ds.foldl (fun n c => 10 * n + (c.toNat - 48)) 0), rest)

def word? (word cs : List Char) : Option (List Char) :=
  if word.isPrefixOf cs then some (cs.drop word.length) else none

mutual

def value? : Nat → List Char → Option (Json × List Char)
  | 0, _ => none
  | fuel + 1, cs =>
    match skipBlanks cs with
    | 'n' :: rest => (word? ['u', 'l', 'l'] rest).map fun r => (null, r)
    | 't' :: rest => (word? ['r', 'u', 'e'] rest).map fun r => (bool true, r)
    | 'f' :: rest => (word? ['a', 'l', 's', 'e'] rest).map fun r => (bool false, r)
    | '"' :: rest => (text? rest).map fun p => (string p.1, p.2)
    | '[' :: rest =>
      match skipBlanks rest with
      | ']' :: rest => some (array [], rest)
      | _ => (items? fuel rest).map fun p => (array p.1, p.2)
    | '\x7b' :: rest =>
      match skipBlanks rest with
      | '\x7d' :: rest => some (object [], rest)
      | _ => (members? fuel rest).map fun p => (object p.1, p.2)
    | '-' :: rest => (unsigned? rest).map fun p => (number none, p.2)
    | rest => (unsigned? rest).map fun p => (number p.1, p.2)

def items? : Nat → List Char → Option (List Json × List Char)
  | 0, _ => none
  | fuel + 1, cs =>
    match value? fuel cs with
    | none => none
    | some (v, rest) =>
      match skipBlanks rest with
      | ']' :: rest => some ([v], rest)
      | ',' :: rest => (items? fuel rest).map fun p => (v :: p.1, p.2)
      | _ => none

def members? : Nat → List Char → Option (List (Option String × Json) × List Char)
  | 0, _ => none
  | fuel + 1, cs =>
    match skipBlanks cs with
    | '"' :: rest =>
      match text? rest with
      | none => none
      | some (key, rest) =>
        match skipBlanks rest with
        | ':' :: rest =>
          match value? fuel rest with
          | none => none
          | some (v, rest) =>
            match skipBlanks rest with
            | '\x7d' :: rest => some ([(key, v)], rest)
            | ',' :: rest => (members? fuel rest).map fun p => ((key, v) :: p.1, p.2)
            | _ => none
        | _ => none
    | _ => none

end

def parse? (s : String) : Option Json :=
  let cs := s.toList
  match value? (2 * cs.length + 2) cs with
  | some (v, rest) => if (skipBlanks rest).isEmpty then some v else none
  | none => none

end Json
end EntityWorld.Text
