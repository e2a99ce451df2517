import ContractHost.Document.Value
import ContractHost.Fault
import ContractHost.Text.Integer

/-!
# Numbers and moments of TOML

Integers are decimal or have a mark of their base, and single underscores may stand between digits.
A decimal integer of more than 4300 digits is refused by itself. A fraction has a point or a power of
ten; `inf` and `nan` may have a sign. A moment is a day, a time of day, or both; of the places of a
second the first six count. What fits the form of a day but is none of the calendar is wrong, but a
day that no time follows as it should is a day alone.

* `readScalar`: the number or moment at the front of a document.
-/

namespace ContractHost.Toml

/-! ## Digits -/

/-- Whether a character is a decimal digit. -/
def isDigit (c : Char) : Bool := '0' ≤ c && c ≤ '9'

/-- The digits of a class in front, which may have single underscores between them, and what follows
them. -/
def spanDigits (p : Char → Bool) : List Char → List Char × List Char
  | [] => ([], [])
  | c :: rest =>
    if p c then
      match rest with
      | '_' :: d :: more =>
        if p d then
          let (digits, rest) := spanDigits p (d :: more)
          (c :: digits, rest)
        else ([c], rest)
      | rest =>
        let (digits, rest) := spanDigits p rest
        (c :: digits, rest)
    else ([], c :: rest)

/-- A sign in front, whether it says less than zero, and what follows it. -/
def readSign (text : List Char) : Bool × List Char :=
  match text with
  | '-' :: rest => (true, rest)
  | '+' :: rest => (false, rest)
  | _ => (false, text)

/-- A number with a sign. -/
def signed (negative : Bool) (n : Nat) : Int := if negative then -n else n

/-! ## Numbers -/

/-- The base of a mark. -/
def baseOf? (mark : Char) : Option Nat :=
  match mark with
  | 'x' => some 16
  | 'o' => some 8
  | 'b' => some 2
  | _ => none

/-- The integer with a mark of its base at the front of a document. -/
def readMarked? (text : List Char) : Option (Int × List Char) :=
  match text with
  | '0' :: mark :: rest => do
    let base ← baseOf? mark
    match spanDigits (fun c => (Text.digitIn? base c).isSome) rest with
    | ([], _) => none
    | (digits, rest) => return (Text.ofDigitValues base (digits.filterMap (Text.digitIn? base)), rest)
  | _ => none

/-- The places of a fraction: a point and at least one digit, or nothing. -/
def readPlaces (text : List Char) : Option (List Char) × List Char :=
  match text with
  | '.' :: rest =>
    match spanDigits isDigit rest with
    | ([], _) => (none, text)
    | (digits, rest) => (some digits, rest)
  | _ => (none, text)

/-- The power of ten: a mark, perhaps a sign, and at least one digit, or nothing. -/
def readPower (text : List Char) : Option Int × List Char :=
  match text with
  | mark :: rest =>
    if mark = 'e' ∨ mark = 'E' then
      let (negative, rest) := readSign rest
      match spanDigits isDigit rest with
      | ([], _) => (none, text)
      | (digits, rest) => (some (signed negative (Decimal.ofDigits digits)), rest)
    else (none, text)
  | [] => (none, text)

/-- The digits of a whole part: a zero alone, or digits that do not begin with one. -/
def readWhole (text : List Char) : List Char × List Char :=
  match text with
  | '0' :: rest => (['0'], rest)
  | _ => spanDigits isDigit text

/-- The decimal number at the front of a document, if there is one. -/
def readDecimal (text : List Char) : Except Fault (Option (Value × List Char)) :=
  let (negative, rest) := readSign text
  let (whole, rest) := readWhole rest
  if whole.isEmpty then .ok none
  else
    let (places, rest) := readPlaces rest
    let (power, rest) := readPower rest
    match places, power with
    | none, none =>
      if Text.maxDecimalDigits < whole.length then .error .badValue
      else .ok (some (.int (signed negative (Decimal.ofDigits whole)), rest))
    | _, _ =>
      let places := places.getD []
      let power := power.getD 0 - places.length
      .ok (some (.float (.ofDecimal negative (Decimal.ofDigits (whole ++ places)) power), rest))

/-- The word for a number that is none or not finite, at the front of a document. -/
def readWord? (text : List Char) : Option (Value × List Char) :=
  let (negative, rest) := readSign text
  match rest with
  | 'i' :: 'n' :: 'f' :: rest => some (.float (.infinite negative), rest)
  | 'n' :: 'a' :: 'n' :: rest => some (.float .nan, rest)
  | _ => none

/-! ## Moments -/

/-- The number of exactly two digits. -/
def twoDigits? (a b : Char) : Option Nat :=
  if isDigit a ∧ isDigit b then some (Decimal.ofDigits [a, b]) else none

/-- The number of two digits in front that lies within bounds. -/
def readTwo? (least most : Nat) (text : List Char) : Option (Nat × List Char) :=
  match text with
  | a :: b :: rest => do
    let n ← twoDigits? a b
    if least ≤ n ∧ n ≤ most then return (n, rest) else none
  | _ => none

/-- What follows a character in front. -/
def after? (c : Char) (text : List Char) : Option (List Char) :=
  match text with
  | d :: rest => if d = c then some rest else none
  | [] => none

/-- The millionths of a second that places spell. -/
def millionths (places : List Char) : Nat :=
  Decimal.ofDigits ((places ++ List.replicate 6 '0').take 6)

/-- The time of day at the front of a document. -/
def readTime? (text : List Char) : Option (TimeOfDay × List Char) := do
  let (hour, rest) ← readTwo? 0 23 text
  let (minute, rest) ← readTwo? 0 59 (← after? ':' rest)
  let (second, rest) ← readTwo? 0 59 (← after? ':' rest)
  let (places, rest) := match rest with
    | '.' :: more =>
      match more.takeWhile isDigit with
      | [] => ([], rest)
      | places => (places, more.dropWhile isDigit)
    | _ => ([], rest)
  return ({ hour, minute, second, microsecond := millionths places }, rest)

/-- The distance from universal time at the front of a document, in minutes, if there is one. -/
def readOffset (text : List Char) : Option Int × List Char :=
  let distance (negative : Bool) (text : List Char) : Option (Int × List Char) := do
    let (hours, rest) ← readTwo? 0 23 text
    let (minutes, rest) ← readTwo? 0 59 (← after? ':' rest)
    return (signed negative (hours * 60 + minutes), rest)
  let found := match text with
    | 'Z' :: rest => some (0, rest)
    | 'z' :: rest => some (0, rest)
    | '+' :: rest => distance false rest
    | '-' :: rest => distance true rest
    | _ => none
  match found with
  | some (minutes, rest) => (some minutes, rest)
  | none => (none, text)

/-- The numbers of a day at the front of a document. -/
def readDay? (text : List Char) : Option (Date × List Char) :=
  match text with
  | a :: b :: c :: d :: rest => do
    let century ← twoDigits? a b
    let year ← twoDigits? c d
    let (month, rest) ← readTwo? 1 12 (← after? '-' rest)
    let (day, rest) ← readTwo? 1 31 (← after? '-' rest)
    return ({ year := century * 100 + year, month, day }, rest)
  | _ => none

/-- The time after a day, with its distance from universal time. -/
def readTimeAfterDay? (text : List Char) : Option (TimeOfDay × Option Int × List Char) :=
  match text with
  | mark :: rest =>
    if mark = 'T' ∨ mark = 't' ∨ mark = ' ' then do
      let (time, rest) ← readTime? rest
      let (offset, rest) := readOffset rest
      return (time, offset, rest)
    else none
  | [] => none

/-- The moment at the front of a document, if there is one. -/
def readMoment (text : List Char) : Except Fault (Option (Moment × List Char)) :=
  match readDay? text with
  | some (day, rest) =>
    if Moment.Valid day then
      match readTimeAfterDay? rest with
      | some (time, offset, rest) => .ok (some (.both day time offset, rest))
      | none => .ok (some (.date day, rest))
    else .error .notToml
  | none => .ok ((readTime? text).map fun (time, rest) => (.time time, rest))

/-! ## Scalars -/

/-- The number or moment at the front of a document. -/
def readScalar (text : List Char) : Except Fault (Value × List Char) := do
  match ← readMoment text with
  | some (moment, rest) => return (.moment moment, rest)
  | none =>
    match readMarked? text with
    | some (n, rest) => return (.int n, rest)
    | none =>
      match ← readDecimal text with
      | some found => return found
      | none =>
        match readWord? text with
        | some found => return found
        | none => throw .notToml

end ContractHost.Toml
