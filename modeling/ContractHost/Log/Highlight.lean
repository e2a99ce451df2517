import ContractHost.Text.Blank
import ContractHost.Text.DecimalDigit
import ContractHost.Text.Hex
import ContractHost.Text.Word

/-!
# Highlights

Lines of the log are shown in colours on a terminal, and a highlight says which part of a line has which
style. Most styles belong to words, and a word is as long as it can be: a hash is a word of two marks and
64 digits, so a longer number has none. Three are not words: a depth is a word, an equals sign and a word
of digits, the name of a logger stands between dashes, and the time goes from the front to the first zone.

* `highlights`: the highlights of a line, style by style.
* `mem_words`: a word is made of word characters and has at least one.
-/

namespace ContractHost.Log

/-- A style. -/
inductive Style
  | hash
  | address
  | depth
  | kind
  | critical
  | debug
  | error
  | info
  | warning
  | loggerName
  | success
  | failure
  | storageStatus
  | timestamp
  deriving DecidableEq, Repr

/-- The name of a style. -/
def Style.name : Style → String
  | .hash => "evmhost.hash"
  | .address => "evmhost.address"
  | .depth => "evmhost.depth"
  | .kind => "evmhost.kind"
  | .critical => "evmhost.level_critical"
  | .debug => "evmhost.level_debug"
  | .error => "evmhost.level_error"
  | .info => "evmhost.level_info"
  | .warning => "evmhost.level_warning"
  | .loggerName => "evmhost.logger_name"
  | .success => "evmhost.status_success"
  | .failure => "evmhost.status_failure"
  | .storageStatus => "evmhost.storage_status"
  | .timestamp => "evmhost.timestamp"

/-- The part of a line from one place up to another. -/
structure Span where
  start : Nat
  stop : Nat
  deriving DecidableEq, Repr

/-- A part of a line and its style. -/
structure Highlight where
  span : Span
  style : Style
  deriving DecidableEq, Repr

/-! ## Words -/

/-- A word of a line. -/
structure FoundWord where
  /-- Where the word begins. -/
  start : Nat
  text : List Char
  /-- What follows the word. -/
  rest : List Char

/-- The words of a text that begins at a place of a line. -/
def words (start : Nat) (text : List Char) : List FoundWord :=
  match text with
  | [] => []
  | c :: rest =>
    if Text.isWord c then
      let word := c :: rest.takeWhile Text.isWord
      let after := rest.dropWhile Text.isWord
      ⟨start, word, after⟩ :: words (start + word.length) after
    else words (start + 1) rest
termination_by text.length
decreasing_by
  · have := (List.dropWhile_sublist (p := Text.isWord) (l := rest)).length_le
    simp only [List.length_cons]
    omega
  · simp

theorem mem_words {start : Nat} {text : List Char} {word : FoundWord}
    (h : word ∈ words start text) :
    word.text ≠ [] ∧ ∀ c ∈ word.text, Text.isWord c = true := by
  induction start, text using words.induct with
  | case1 start => simp [words] at h
  | case2 start c rest hc found after ih =>
    rw [words] at h
    simp only [hc, if_true, List.mem_cons] at h
    rcases h with rfl | h
    · refine ⟨by simp, fun d hd => ?_⟩
      rcases List.mem_cons.mp hd with rfl | hd
      · exact hc
      · exact List.all_eq_true.mp List.all_takeWhile d hd
    · exact ih h
  | case3 start c rest hc ih =>
    rw [words] at h
    simp only [hc] at h
    exact ih h

/-- The part of a line that a word is. -/
def FoundWord.span (word : FoundWord) : Span := ⟨word.start, word.start + word.text.length⟩

/-- The words of a kind, by their texts. -/
def wordsOf (p : List Char → Bool) (line : List Char) : List Span :=
  ((words 0 line).filter fun word => p word.text).map FoundWord.span

/-- The words that are among some. -/
def anyOf (names : List String) (line : List Char) : List Span :=
  wordsOf (fun word => names.contains (String.ofList word)) line

/-- Whether a text is two marks and a number of hexadecimal digits. -/
def isMarkedHex (count : Nat) : List Char → Bool
  | '0' :: 'x' :: digits => Hex.isDigits count digits
  | _ => false

/-! ## What is not a word -/

/-- The part of a line from a word on that gives a depth. -/
def depthAt? (word : FoundWord) : Option Span :=
  match word.rest with
  | '=' :: rest =>
    let digits := rest.takeWhile Text.isWord
    if word.text = "depth".toList ∧ digits ≠ [] ∧
        digits.all fun c => (Text.decimalValue? c).isSome then
      some ⟨word.start, word.start + word.text.length + 1 + digits.length⟩
    else none
  | _ => none

/-- The depths of a line. -/
def depths (line : List Char) : List Span := (words 0 line).filterMap depthAt?

/-- What follows a class of characters at the front of a text that has at least one of them, and how
many there are. -/
def run? (p : Char → Bool) (text : List Char) : Option (Nat × List Char) :=
  let count := (text.takeWhile p).length
  if count = 0 then none else some (count, text.drop count)

/-- What follows a dash. -/
def dash? : List Char → Option (List Char)
  | '-' :: rest => some rest
  | _ => none

/-- Whether a dash between single spaces follows. -/
def dashFollows : List Char → Bool
  | c :: '-' :: d :: _ => Text.isBlank c && Text.isBlank d
  | _ => false

/-- Whether a character is part of the name of a logger. -/
def isLoggerChar (c : Char) : Bool := Text.isWord c || c = '.'

/-- The count of characters before the name of a logger, and that of the name, if a text begins with a
dash, a word, a dash and a name before another dash. -/
def loggerAt? (text : List Char) : Option (Nat × Nat) := do
  let (first, rest) ← run? Text.isBlank (← dash? text)
  let (word, rest) ← run? Text.isWord rest
  let (second, rest) ← run? Text.isBlank rest
  let (third, rest) ← run? Text.isBlank (← dash? rest)
  let (name, rest) ← run? isLoggerChar rest
  if dashFollows rest then some (1 + first + word + second + 1 + third, name) else none

/-- The names of loggers in a text that begins at a place of a line, after some characters that belong
to what was found. -/
def loggersFrom : (skipped start : Nat) → List Char → List Span
  | _, _, [] => []
  | skipped + 1, start, _ :: rest => loggersFrom skipped (start + 1) rest
  | 0, start, c :: rest =>
    match loggerAt? (c :: rest) with
    | some (before, name) =>
      ⟨start + before, start + before + name⟩ :: loggersFrom (before + name - 1) (start + 1) rest
    | none => loggersFrom 0 (start + 1) rest

/-- The place after the first mark of the time zone on the first line of a text. -/
def zoneEnd? (place : Nat) : List Char → Option Nat
  | [] => none
  | 'U' :: 'T' :: 'C' :: _ => some (place + 3)
  | c :: rest => if c = '\n' then none else zoneEnd? (place + 1) rest

/-- The time of a line, if there is one. -/
def times (line : List Char) : List Span := (zoneEnd? 0 line).toList.map fun stop => ⟨0, stop⟩

/-! ## Lines -/

/-- The styles and what they belong to, in the order of precedence. -/
def rules : List (Style × (List Char → List Span)) :=
  [(.hash, wordsOf (isMarkedHex 64)), (.address, wordsOf (isMarkedHex 40)), (.depth, depths),
   (.kind, anyOf ["CALL", "DELEGATECALL", "CALLCODE", "CREATE2", "CREATE"]),
   (.critical, anyOf ["CRITICAL"]), (.debug, anyOf ["DEBUG"]), (.error, anyOf ["ERROR"]),
   (.info, anyOf ["INFO"]), (.warning, anyOf ["WARNING"]), (.loggerName, loggersFrom 0 0),
   (.success, anyOf ["SUCCESS"]),
   (.failure, anyOf ["REVERT", "FAILURE", "OUT_OF_GAS", "INTERNAL_ERROR", "REJECTED"]),
   (.storageStatus, anyOf ["ADDED", "MODIFIED_AGAIN", "MODIFIED", "UNCHANGED"]),
   (.timestamp, times)]

/-- Whether a character never reaches a terminal: a bell, a backspace, vertical tabs and returns. -/
def isDropped (c : Char) : Bool := c.toNat = 7 || c.toNat = 8 || (11 ≤ c.toNat && c.toNat ≤ 13)

/-- The highlights of a line, style by style. -/
def highlights (line : List Char) : List Highlight :=
  let shown := line.filter (!isDropped ·)
  rules.flatMap fun (style, spans) => (spans shown).map (⟨·, style⟩)

end ContractHost.Log
