/-
  What words without quotes mean in YAML texts.

  A word may stand for no value, a truth value, a number or a moment; any other word is a
  text.  Numbers may have underscores among their digits, integers may be written in base
  2, 8 or 16 after `0b`, `0` and `0x`, and numbers may be written in base 60 with colons
  between the digits.

  * `int?`, `real?` and `moment?` tell whether a word is a number or a moment by its form;
    a word with such a form that has no value is a fault;
  * `meaning` is what a word stands for.
-/
import PrimaryEnergy.Decimal.Numeral
import PrimaryEnergy.Document.Basic
import PrimaryEnergy.Text.Hex
import PrimaryEnergy.Text.Lines

namespace PrimaryEnergy

/-- Why a YAML text cannot be read. -/
inductive YamlFault where
  /-- The text does not have the form of a document, or a part of it has no meaning. -/
  | malformed
  /-- A number has no digits of its base. -/
  | noDigits (base : Nat)
  /-- A number has this many digits, which is too many. -/
  | manyDigits (count : Nat)
  /-- There is no such moment. -/
  | moment (e : MomentFault)
deriving DecidableEq, Repr

/-- What a reader is told about it. -/
def YamlFault.message : YamlFault → String
  | malformed => ""
  | noDigits base => "invalid literal for int() with base " ++ base.repr ++ ": ''"
  | manyDigits count =>
    "Exceeds the limit (4300 digits) for integer string conversion: value has " ++ count.repr ++
      " digits; use sys.set_int_max_str_digits() to increase the limit"
  | moment e => e.message

namespace Document.Yaml

open Text Decimal

/-- A value that a word has by its form, if there is one. -/
abbrev Formed (α : Type) := Except YamlFault α

/-! ## Digits -/

/-- A digit or an underscore. -/
def isDigitMark (c : Char) : Bool := Numeral.isPlainDigit c || c = '_'

/-- The number written by digits of a base. -/
def baseValue (base : Nat) (ds : List Char) : Nat :=
  ds.foldl (fun n c => base * n + (hexDigit? c).getD 0) 0

/-- The digits without underscores among them. -/
def bareDigits (ds : List Char) : List Char := ds.filter (· ≠ '_')

/-- The number written in base 2 or 16 after a mark. -/
def markedValue (base : Nat) (ds : List Char) : Formed Nat :=
  if (bareDigits ds).isEmpty then .error (.noDigits base) else .ok (baseValue base (bareDigits ds))

/-- How many decimal digits a number may have. -/
def digitLimit : Nat := 4300

/-- The number written in base 10. -/
def decimalValue (ds : List Char) : Formed Nat :=
  let n := (bareDigits ds).length
  if digitLimit < n then .error (.manyDigits n) else .ok (baseValue 10 (bareDigits ds))

/-- Whether digits can follow a colon: one or two, below 60. -/
def isSixtieth : List Char → Bool
  | [d] => Numeral.isPlainDigit d
  | [t, d] => '0' ≤ t && t ≤ '5' && Numeral.isPlainDigit d
  | _ => false

/-! ## Integers -/

/-- The numbers with colons between them as one number in base 60. -/
def sixtyValue (parts : List (List Char)) : Formed Nat :=
  parts.foldlM (fun n ds => (decimalValue ds).map (60 * n + ·)) 0

/-- Reads an integer without sign. -/
def natural? : List Char → Option (Formed Nat)
  | [] => none
  | '0' :: 'b' :: d :: r =>
    if (d :: r).all fun c => c = '0' || c = '1' || c = '_' then some (markedValue 2 (d :: r))
    else none
  | '0' :: 'x' :: d :: r =>
    if (d :: r).all fun c => (hexDigit? c).isSome || c = '_' then some (markedValue 16 (d :: r))
    else none
  | '0' :: r =>
    if r.all fun c => ('0' ≤ c && c ≤ '7') || c = '_' then some (.ok (baseValue 8 (bareDigits r)))
    else none
  | s =>
    match fields ':' s with
    | (d :: ds) :: parts =>
      if Numeral.isPlainDigit d && ds.all isDigitMark && parts.all isSixtieth then
        some (sixtyValue ((d :: ds) :: parts))
      else none
    | _ => none

/-- Reads an integer. -/
def int? (s : List Char) : Option (Formed Int) :=
  let (negative, body) := Numeral.signed s
  (natural? body).map fun v => v.map fun n => if negative then -(n : Int) else n

/-! ## Other numbers -/

/-- The exponent of a number, which must have a sign; or nothing. -/
def isExponent : List Char → Bool
  | [] => true
  | e :: sign :: d :: ds =>
    (e = 'e' || e = 'E') && (sign = '+' || sign = '-') && (d :: ds).all Numeral.isPlainDigit
  | _ => false

/-- Whether a number without sign has a point among its digits, and perhaps an exponent.  A
    number that starts with the point has no sign in front. -/
def isPointed (signed : Bool) (s : List Char) : Bool :=
  match s.takeWhile isDigitMark, s.dropWhile isDigitMark with
  | [], '.' :: r =>
    !signed && r.head?.any Numeral.isPlainDigit && isExponent (r.dropWhile isDigitMark)
  | c :: _, '.' :: r => c ≠ '_' && isExponent (r.dropWhile isDigitMark)
  | _, _ => false

/-- The number written by digits, perhaps with a point. -/
def pointedValue (ds : List Char) : Float :=
  ((Numeral.ofChars? (bareDigits ds)).map Numeral.toFloat).getD 0

/-- Numbers as the digits of one number in base 60, from the last up. -/
def sixtyReal (parts : List Float) : Float :=
  (parts.reverse.zipIdx.map fun (x, i) => x * ofInt (Nat.pow 60 i)).foldl (· + ·) 0

/-- Reads a number in base 60 whose last digits have a point behind. -/
def sixtyPointed? (s : List Char) : Option Float :=
  match cut '.' s with
  | (front, some r) =>
    match fields ':' front with
    | (d :: ds) :: p :: ps =>
      if Numeral.isPlainDigit d && ds.all isDigitMark && (p :: ps).all isSixtieth &&
          r.all isDigitMark then
        some (sixtyReal ((((d :: ds) :: (p :: ps).dropLast).map pointedValue) ++
          [pointedValue ((p :: ps).getLastD [] ++ '.' :: r)]))
      else none
    | _ => none
  | _ => none

/-- The ways to write an infinity. -/
def infinityWords : List String := [".inf", ".Inf", ".INF"]

/-- The ways to write what is not a number. -/
def nanWords : List String := [".nan", ".NaN", ".NAN"]

/-- Reads a number with a point. -/
def real? (s : List Char) : Option Float :=
  let (negative, body) := Numeral.signed s
  let signed := body.length < s.length
  if infinityWords.contains (String.ofList body) then some (Numeral.infinite negative).toFloat
  else if nanWords.contains (String.ofList s) then some Numeral.nan.toFloat
  else if isPointed signed body then some (pointedValue s)
  else (sixtyPointed? body).map fun x => if negative then -x else x

/-! ## Moments -/

/-- The number written by the digits in front, at least `low` and at most `high` of them, and
    what follows. -/
def digits? (low high : Nat) (s : List Char) : Option (Nat × List Char) :=
  let ds := s.takeWhile Numeral.isPlainDigit
  if low ≤ ds.length ∧ ds.length ≤ high then some (Numeral.valueOf ds, s.drop ds.length) else none

/-- What follows a character, if it is in front. -/
def after? (c : Char) : List Char → Option (List Char)
  | d :: r => if d = c then some r else none
  | [] => none

/-- Whether a character is a space or a tab. -/
def isSpaceOrTab (c : Char) : Bool := c = ' ' || c = '\t'

/-- Drops what separates a time of day from a day; there must be something. -/
def timePart? : List Char → Option (List Char)
  | c :: r =>
    if c = 'T' ∨ c = 't' then some r
    else if isSpaceOrTab c then some (r.dropWhile isSpaceOrTab)
    else none
  | [] => none

/-- Reads the millionths of a second after a point, if there is one. -/
def fractionPart : List Char → Nat × List Char
  | '.' :: r =>
    let ds := r.takeWhile Numeral.isPlainDigit
    (Numeral.valueOf ((ds ++ List.replicate 6 '0').take 6), r.drop ds.length)
  | s => (0, s)

/-- Reads the distance from universal time at the end of a moment, if it is told. -/
def offsetPart? (s : List Char) : Option (Option Int) :=
  match s.dropWhile isSpaceOrTab with
  | [] => if s.isEmpty then some none else none
  | ['Z'] => some (some 0)
  | sign :: r => do
    guard (sign = '+' || sign = '-')
    let (hours, r) ← digits? 1 2 r
    let minutes ← match r with
      | [] => some 0
      | r => do
        let (n, r) ← digits? 2 2 (← after? ':' r)
        guard r.isEmpty
        some n
    let n : Int := 60 * hours + minutes
    return some (if sign = '-' then -n else n)

/-- Reads a moment.  A day alone has two digits for month and day, with a time of day one is
    enough. -/
def moment? (s : List Char) : Option Moment := do
  let (year, r) ← digits? 4 4 s
  let (month, r) ← digits? 1 2 (← after? '-' r)
  let (day, r) ← digits? 1 2 (← after? '-' r)
  match r with
  | [] =>
    guard (s.length = 10)
    return ⟨year, month, day, none⟩
  | r =>
    let (hour, r) ← digits? 1 2 (← timePart? r)
    let (minute, r) ← digits? 2 2 (← after? ':' r)
    let (second, r) ← digits? 2 2 (← after? ':' r)
    let (fraction, r) := fractionPart r
    let offset ← offsetPart? r
    return ⟨year, month, day, some ⟨hour, minute, second, fraction, offset⟩⟩

/-! ## Words -/

/-- The words that stand for no value. -/
def nullWords : List String := ["", "~", "null", "Null", "NULL"]

/-- The words that stand for true. -/
def trueWords : List String := ["yes", "Yes", "YES", "true", "True", "TRUE", "on", "On", "ON"]

/-- The words that stand for false. -/
def falseWords : List String := ["no", "No", "NO", "false", "False", "FALSE", "off", "Off", "OFF"]

/-- The name under which an object takes over the fields of others. -/
def mergeWord : String := "<<"

/-- The name under which an object would have a value of its own. -/
def defaultWord : String := "="

/-- What a word stands for; the two special names stand for nothing. -/
def meaning (s : List Char) : Formed Document :=
  let word := String.ofList s
  if nullWords.contains word then .ok .null
  else if trueWords.contains word then .ok (.bool true)
  else if falseWords.contains word then .ok (.bool false)
  else if word = mergeWord ∨ word = defaultWord then .error .malformed
  else match real? s, int? s, moment? s with
    | some x, _, _ => .ok (.real x)
    | none, some n, _ => n.map .int
    | none, none, some m => (m.checked.map .moment).mapError .moment
    | none, none, none => .ok (.text word)

/-- Whether a word stands for itself. -/
def isText (s : List Char) : Bool :=
  match meaning s with
  | .ok (.text _) => true
  | _ => false

end Document.Yaml

end PrimaryEnergy
