import ContractHost.Decimal.Digits
import ContractHost.Time.Clock

/-!
# Date patterns

A pattern is a text with directives for the parts of a moment. A directive begins with a percent sign and
has, in this order and all but the last of them optional: flags, a width, a mark for other forms of the
locale, and the letter of a part. What has no meaning as a directive stays as it is. Names are English
and times universal.

* `Pattern.write`: the text of a moment in a pattern.
-/

namespace ContractHost.Pattern

/-! ## Names -/

/-- The names of the days of the week. -/
def weekdays : List String :=
  ["Sunday", "Monday", "Tuesday", "Wednesday", "Thursday", "Friday", "Saturday"]

/-- The names of the months. -/
def months : List String :=
  ["January", "February", "March", "April", "May", "June", "July", "August", "September", "October",
   "November", "December"]

/-- The name at a place. -/
def nameAt (names : List String) (place : Nat) : List Char := (names.getD place "?").toList

/-- The first three characters of a name. -/
def short (name : List Char) : List Char := name.take 3

/-! ## Directives -/

/-- A directive. -/
structure Directive where
  /-- The character that numbers are filled with: a zero, a space given as an underscore, or a minus
  for none. -/
  fill : Option Char
  /-- Whether names are in capitals. -/
  capitals : Bool
  /-- Whether names are in the other case. -/
  other : Bool
  /-- The least number of characters. -/
  width : Nat
  /-- The mark for other forms. -/
  mark : Option Char
  /-- The letter of the part, if the text goes on that far. -/
  part : Option Char
  deriving Repr

/-- What a directive writes. -/
inductive Part
  /-- A number on a count of digits, by itself filled with zeros or with spaces. -/
  | number (digits : Nat) (value : Int) (spaces : Bool)
  /-- A number with a sign, as it is even if it is positive. -/
  | offset
  /-- A text, in capitals or small letters as the flags say. -/
  | name (text : List Char) (small : Bool)
  /-- A pattern of its own. -/
  | pattern (text : String)
  /-- Nothing that has a meaning. -/
  | unknown

/-- Whether a character is a flag. -/
def isFlag (c : Char) : Bool := c = '_' || c = '-' || c = '0' || c = '^' || c = '#'

/-- Whether a character is a decimal digit. -/
def isDigit (c : Char) : Bool := '0' ≤ c && c ≤ '9'

/-- The directive at the front of a text after its percent sign, the characters it has, and what follows
it. -/
def readDirective (text : List Char) : Directive × List Char × List Char :=
  let flags := text.takeWhile isFlag
  let rest := text.dropWhile isFlag
  let digits := rest.takeWhile isDigit
  let rest := rest.dropWhile isDigit
  let (mark, rest) := match rest with
    | 'E' :: more => (some 'E', more)
    | 'O' :: more => (some 'O', more)
    | _ => (none, rest)
  let directive : Directive := {
    fill := (flags.filter fun c => c = '_' || c = '-' || c = '0').getLast?
    capitals := flags.contains '^', other := flags.contains '#'
    width := Decimal.ofDigits digits, mark, part := rest.head? }
  (directive, text.take (text.length - (rest.length - 1)), rest.drop 1)

/-- The hour on a clock with twelve of them. -/
def twelve (hour : Nat) : Nat := if hour % 12 = 0 then 12 else hour % 12

/-- The word for the half of the day. -/
def halfDay (hour : Nat) : List Char := if hour < 12 then ['A', 'M'] else ['P', 'M']

/-- A part that has no form with the given mark. -/
def Part.without (part : Part) (mark : Option Char) (refused : Char) : Part :=
  if mark = some refused then .unknown else part

/-- A part that has no form with any mark. -/
def Part.plain (part : Part) (mark : Option Char) : Part :=
  if mark.isSome then .unknown else part

/-- What a directive writes of a moment. -/
def Directive.partOf (d : Directive) (c : Clock) : Part :=
  let number (digits : Nat) (n : Int) : Part := .number digits n false
  let spaced (digits : Nat) (n : Int) : Part := .number digits n true
  match d.part.getD ' ' with
  | '%' => .name ['%'] false
  | 'n' => .name ['\n'] false
  | 't' => .name ['\t'] false
  | 'a' => (Part.name (short (nameAt weekdays c.weekday)) false).plain d.mark
  | 'A' => (Part.name (nameAt weekdays c.weekday) false).plain d.mark
  | 'b' | 'h' => (Part.name (short (nameAt months (c.month - 1))) false).without d.mark 'E'
  | 'B' => (Part.name (nameAt months (c.month - 1)) false).without d.mark 'E'
  | 'c' => (Part.pattern "%a %b %e %H:%M:%S %Y").without d.mark 'O'
  | 'C' => number 2 (Int.fdiv c.year 100)
  | 'x' => (Part.pattern "%m/%d/%y").without d.mark 'O'
  | 'D' => (Part.pattern "%m/%d/%y").plain d.mark
  | 'd' => (number 2 c.day).without d.mark 'E'
  | 'e' => (spaced 2 c.day).without d.mark 'E'
  | 'F' => (Part.pattern "%Y-%m-%d").plain d.mark
  | 'H' => (number 2 c.hour).without d.mark 'E'
  | 'I' => (number 2 (twelve c.hour)).without d.mark 'E'
  | 'k' => (spaced 2 c.hour).without d.mark 'E'
  | 'l' => (spaced 2 (twelve c.hour)).without d.mark 'E'
  | 'j' => (number 3 (c.yearDay + 1)).without d.mark 'E'
  | 'M' => (number 2 c.minute).without d.mark 'E'
  | 'm' => (number 2 c.month).without d.mark 'E'
  | 'p' => .name (halfDay c.hour) false
  | 'P' => .name (halfDay c.hour) true
  | 'R' => .pattern "%H:%M"
  | 'r' => .pattern "%I:%M:%S %p"
  | 'S' => (number 2 c.second).without d.mark 'E'
  | 's' => .name (Decimal.intChars c.seconds) false
  | 'X' => (Part.pattern "%H:%M:%S").without d.mark 'O'
  | 'T' => .pattern "%H:%M:%S"
  | 'u' => number 1 (if c.weekday = 0 then 7 else c.weekday)
  | 'w' => (number 1 c.weekday).without d.mark 'E'
  | 'U' => (number 2 (c.weekFrom 0)).without d.mark 'E'
  | 'W' => (number 2 (c.weekFrom 1)).without d.mark 'E'
  | 'V' => (number 2 c.isoWeek.2).without d.mark 'E'
  | 'g' => (number 2 (Int.fmod c.isoWeek.1 100)).without d.mark 'E'
  | 'G' => (number 1 c.isoWeek.1).without d.mark 'E'
  | 'Y' => (number 1 c.year).without d.mark 'O'
  | 'y' => number 2 (Int.fmod c.year 100)
  | 'Z' => .name ['G', 'M', 'T'] false
  | 'z' => .offset
  | _ => .unknown

/-! ## Writing -/

/-- A text filled to a width, with zeros if they are the fill. -/
def widen (fill : Option Char) (width : Nat) (text : List Char) : List Char :=
  List.replicate (width - text.length) (if fill = some '0' then '0' else ' ') ++ text

/-- A number on a count of digits. -/
def writeNumber (fill : Option Char) (width digits : Nat) (spaces : Bool) (n : Int) : List Char :=
  let fill := if spaces && fill ≠ some '0' && fill ≠ some '-' then some '_' else fill
  let count := max digits width
  let text := Decimal.digits n.natAbs
  let sign := if n < 0 then ['-'] else []
  let lack := count - (sign.length + text.length)
  match fill with
  | some '-' => widen fill width (sign ++ text)
  | some '_' => List.replicate lack ' ' ++ sign ++ text
  | _ => sign ++ List.replicate lack '0' ++ text

/-- A name in the case that a directive asks for. A name that is in capitals by itself turns into small
letters in the other case, and any other into capitals. -/
def Directive.inCase (d : Directive) (small : Bool) (text : List Char) : List Char :=
  if small || (d.other && d.part = some 'p') then text.map Char.toLower
  else if d.capitals || d.other then text.map Char.toUpper
  else text

/-- A text in capitals, if a directive asks for them, or for the other case of a short month. -/
def Directive.raised (d : Directive) (text : List Char) : List Char :=
  if d.capitals || (d.other && (d.part = some 'b' || d.part = some 'h')) then text.map Char.toUpper
  else text

/-- The width of a name; that of the zone counts only with a fill. -/
def Directive.nameWidth (d : Directive) : Nat :=
  if d.part = some 'Z' && d.fill = some '-' then 0 else d.width

/-- The text of a moment in a pattern, of which no more directives are read than the budget. Patterns
within patterns have no others within them. -/
def writeFrom (c : Clock) (inner : String → List Char) : (budget : Nat) → List Char → List Char
  | 0, _ => []
  | _, [] => []
  | budget + 1, '%' :: rest =>
    let (d, own, rest) := readDirective rest
    let text := match d.partOf c with
      | .number digits n spaces => writeNumber d.fill d.width digits spaces n
      | .offset => widen d.fill d.width ['+'] ++ writeNumber d.fill d.width 4 false 0
      | .name text small => widen d.fill d.nameWidth (d.inCase small text)
      | .pattern text => widen d.fill d.width (d.raised (inner text))
      | .unknown => widen d.fill d.width (d.raised ('%' :: own))
    text ++ writeFrom c inner budget rest
  | budget + 1, ch :: rest => ch :: writeFrom c inner budget rest

/-- The text of a moment in a pattern without patterns within it. -/
def writeInner (c : Clock) (pattern : String) : List Char :=
  writeFrom c (fun _ => []) pattern.length pattern.toList

/-- The number of characters that there is no room for with a pattern of the given length: the least power
of two from 1024 on that is at least 256 times the length. -/
def room (length : Nat) : Nat :=
  256 * twoTo (max 2 (if length ≤ 1 then 0 else Nat.log2 (length - 1) + 1))

/-- The text of a moment in a pattern. There is none if it is far longer than the pattern. -/
def write (pattern : String) (c : Clock) : String :=
  let text := pattern.toList
  let written := writeFrom c (writeInner c) text.length text
  if written.length < room text.length then String.ofList written else ""

end ContractHost.Pattern
