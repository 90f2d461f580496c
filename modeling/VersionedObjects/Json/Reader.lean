import VersionedObjects.Json.Basic

/-!
# Reading JSON

A whole text is one value with white space around it. Digits of a number beyond 64 bits of
significand only count as places; the significand is then multiplied or divided by a power of ten
in double precision, so a result may differ from the nearest number in its last bit.
-/

namespace VersionedObjects.Json

open Number (Binary64)

/-- Values at this depth and below cannot be read. -/
def depthLimit : Nat := 128

/-- White space between tokens. -/
def isSpace (c : Char) : Bool :=
  c == ' ' || c == '\t' || c == '\n' || c == '\r'

/-- The text after white space. -/
def skipSpace (s : List Char) : List Char :=
  s.dropWhile isSpace

/-! ## Strings -/

/-- The value of a hexadecimal digit. -/
def hexValue? (c : Char) : Option Nat :=
  if '0' ≤ c ∧ c ≤ '9' then some (c.toNat - '0'.toNat)
  else if 'a' ≤ c ∧ c ≤ 'f' then some (c.toNat - 'a'.toNat + 10)
  else if 'A' ≤ c ∧ c ≤ 'F' then some (c.toNat - 'A'.toNat + 10)
  else none

/-- The number that four hexadecimal digits denote. -/
def hex4? (a b c d : Char) : Option Nat := do
  return (((← hexValue? a) * 16 + (← hexValue? b)) * 16 + (← hexValue? c)) * 16 + (← hexValue? d)

/-- The character that a letter after a backslash stands for. -/
def escape? : Char → Option Char
  | '"' => some '"'
  | '\\' => some '\\'
  | '/' => some '/'
  | 'b' => some '\x08'
  | 'f' => some '\x0c'
  | 'n' => some '\n'
  | 'r' => some '\r'
  | 't' => some '\t'
  | _ => none

/-- The code points and surrogates up to the closing quote, with the text after it. -/
def codePoints? : List Char → Option (List Nat × List Char)
  | '"' :: rest => some ([], rest)
  | '\\' :: 'u' :: a :: b :: c :: d :: rest => do
    let n ← hex4? a b c d
    let (points, rest) ← codePoints? rest
    return (n :: points, rest)
  | '\\' :: c :: rest => do
    let d ← escape? c
    let (points, rest) ← codePoints? rest
    return (d.toNat :: points, rest)
  | c :: rest =>
    if c.toNat < 0x20 ∨ c = '\\' then none
    else do
      let (points, rest) ← codePoints? rest
      return (c.toNat :: points, rest)
  | [] => none

/-- The text of code points in which surrogates stand in pairs. -/
def textOf? : List Nat → Option (List Char)
  | high :: low :: rest =>
    if 0xd800 ≤ high ∧ high < 0xdc00 then
      if 0xdc00 ≤ low ∧ low < 0xe000 then do
        let c := Char.ofNat (0x10000 + (high - 0xd800) * 0x400 + (low - 0xdc00))
        return c :: (← textOf? rest)
      else none
    else if 0xdc00 ≤ high ∧ high < 0xe000 then none
    else do return Char.ofNat high :: (← textOf? (low :: rest))
  | [point] => if 0xd800 ≤ point ∧ point < 0xe000 then none else some [Char.ofNat point]
  | [] => some []

/-! ## Numbers -/

/-- The greatest significand that is kept. -/
def significandLimit : Nat := Nat.pow 2 64

/-- Takes digits into a significand while it stays below the limit; the result has the number of
digits taken and whether all were. -/
def takeDigits (significand : Nat) : List Char → Nat × Nat × Bool
  | [] => (significand, 0, true)
  | c :: rest =>
    let next := significand * 10 + (c.toNat - '0'.toNat)
    if next < significandLimit then
      let (significand, taken, all) := takeDigits next rest
      (significand, taken + 1, all)
    else (significand, 0, false)

/-- The significand times a power of ten in double precision, none if it overflows. Powers beyond
308 are divided off in steps. -/
def scale? (fuel : Nat) (x : Binary64) (exponent : Int) : Option Binary64 :=
  let power (n : Nat) : Binary64 := Binary64.ofDecimal false 1 n
  if exponent.natAbs ≤ 308 then
    if 0 ≤ exponent then
      let y := x.mul (power exponent.natAbs)
      if y.isInfinite then none else some y
    else some (x.div (power exponent.natAbs))
  else if x.magnitude = 0 then some x
  else if 0 ≤ exponent then none
  else
    match fuel with
    | 0 => some Binary64.zero
    | fuel + 1 => scale? fuel (x.div (power 308)) (exponent + 308)

/-- The bounds of a 32-bit exponent. -/
def clampExponent (n : Int) : Int :=
  max (-Int.pow 2 31) (min n (Int.pow 2 31 - 1))

/-- The parts of a number as written; the exponent has a minus sign or not. -/
structure Numeral where
  negative : Bool
  whole : List Char
  fraction : List Char
  exponent : Option (Bool × List Char)

/-- The number that digits denote. -/
def digitsValue (digits : List Char) : Nat :=
  digits.foldl (fun n c => 10 * n + (c.toNat - '0'.toNat)) 0

/-- The value of a numeral. -/
def Numeral.value (n : Numeral) : Json :=
  let signed (x : Binary64) : Json := .float (if n.negative then x.neg else x)
  let (significand, taken, all) := takeDigits 0 n.whole
  if n.fraction.isEmpty && n.exponent.isNone && all then
    if !n.negative then .int significand
    else if significand ≠ 0 ∧ significand ≤ Nat.pow 2 63 then .int (-significand)
    else signed (Binary64.ofRatio false significand 1)
  else
    let dropped : Int := (n.whole.length - taken : Nat)
    let (significand, places, _) := takeDigits significand n.fraction
    let start := dropped - places
    let scaled (exponent : Int) : Json :=
      match scale? 8 (Binary64.ofRatio false significand 1) exponent with
      | some x => signed x
      | none => .unreadable
    match n.exponent with
    | none => scaled start
    | some (negative, digits) =>
      let e := digitsValue digits
      if Nat.pow 2 31 ≤ e then
        if significand ≠ 0 ∧ !negative then .unreadable else signed Binary64.zero
      else scaled (clampExponent (if negative then start - e else start + e))

/-- Reads a numeral. -/
def numeral? (s : List Char) : Option (Numeral × List Char) := do
  let (negative, s) := match s with
    | '-' :: rest => (true, rest)
    | s => (false, s)
  let whole := s.takeWhile Char.isDigit
  let s := s.dropWhile Char.isDigit
  match whole with
  | [] => none
  | '0' :: _ :: _ => none
  | _ => pure ()
  let (fraction, s) ← match s with
    | '.' :: rest =>
      match rest.takeWhile Char.isDigit with
      | [] => none
      | fraction => some (fraction, rest.dropWhile Char.isDigit)
    | s => some ([], s)
  let exponentOf (s : List Char) : Option (Option (Bool × List Char) × List Char) :=
    let (minus, s) := match s with
      | '+' :: rest => (false, rest)
      | '-' :: rest => (true, rest)
      | s => (false, s)
    match s.takeWhile Char.isDigit with
    | [] => none
    | digits => some (some (minus, digits), s.dropWhile Char.isDigit)
  let (exponent, s) ← match s with
    | 'e' :: rest => exponentOf rest
    | 'E' :: rest => exponentOf rest
    | s => some (none, s)
  return ({ negative, whole, fraction, exponent }, s)

/-! ## Values -/

/-- The text after a given word. -/
def word? (word : String) (s : List Char) : Option (List Char) :=
  if word.toList.isPrefixOf s then some (s.drop word.length) else none

mutual

/-- Reads a value inside `depth` arrays and objects. -/
def value? (fuel depth : Nat) (s : List Char) : Option (Json × List Char) :=
  match fuel with
  | 0 => none
  | fuel + 1 =>
    let checked (json : Json) : Json := if depthLimit ≤ depth + 1 then .unreadable else json
    match skipSpace s with
    | 'n' :: rest => do return (.null, ← word? "ull" rest)
    | 't' :: rest => do return (.bool true, ← word? "rue" rest)
    | 'f' :: rest => do return (.bool false, ← word? "alse" rest)
    | '"' :: rest => do
      let (points, rest) ← codePoints? rest
      return (match textOf? points with
        | some text => .string (String.ofList text)
        | none => .unreadable, rest)
    | '[' :: rest =>
      match skipSpace rest with
      | ']' :: rest => some (checked (.array []), rest)
      | rest => do
        let (items, rest) ← items? fuel (depth + 1) rest
        return (checked (.array items), rest)
    | '\x7b' :: rest =>
      match skipSpace rest with
      | '\x7d' :: rest => some (checked (.object []), rest)
      | rest => do
        let (members, rest) ← members? fuel (depth + 1) rest
        return (match members with
          | some members => checked (.object members)
          | none => .unreadable, rest)
    | s => do
      let (numeral, rest) ← numeral? s
      return (numeral.value, rest)

/-- Reads the items of an array and its end. -/
def items? (fuel depth : Nat) (s : List Char) : Option (List Json × List Char) :=
  match fuel with
  | 0 => none
  | fuel + 1 => do
    let (item, rest) ← value? fuel depth s
    match skipSpace rest with
    | ']' :: rest => return ([item], rest)
    | ',' :: rest =>
      let (items, rest) ← items? fuel depth rest
      return (item :: items, rest)
    | _ => none

/-- Reads the members of an object and its end; no members if a name has no text. -/
def members? (fuel depth : Nat) (s : List Char) :
    Option (Option (List (String × Json)) × List Char) :=
  match fuel with
  | 0 => none
  | fuel + 1 =>
    match skipSpace s with
    | '"' :: rest => do
      let (points, rest) ← codePoints? rest
      let name := (textOf? points).map String.ofList
      match skipSpace rest with
      | ':' :: rest =>
        let (value, rest) ← value? fuel depth rest
        let member := name.map fun name => (name, value)
        match skipSpace rest with
        | '\x7d' :: rest => return (member.map fun m => [m], rest)
        | ',' :: rest =>
          let (members, rest) ← members? fuel depth rest
          return (do return (← member) :: (← members), rest)
        | _ => none
      | _ => none
    | _ => none

end

/-- The value that a text denotes. -/
def parse? (text : String) : Option Json := do
  let s := text.toList
  let (value, rest) ← value? (s.length + 1) 0 s
  if (skipSpace rest).isEmpty then some value else none

end VersionedObjects.Json
