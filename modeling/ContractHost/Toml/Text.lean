import ContractHost.Text.Hex

/-!
# Texts and keys of TOML

A text stands in double quotes, where a backslash begins an escape, or in single quotes, where every
character is itself. Three quotes in a row enclose a text of several lines: a line end right after
them is dropped, and the text may end in one or two quotes of its own. A key is a sequence of bare or
quoted names with points between them.

Each reading function takes what is left of the document and gives back what it leaves, or nothing if
the document is wrong there.
-/

namespace ContractHost.Toml

/-- Whether a character is white space inside a line. -/
def isBlank (c : Char) : Bool := c = ' ' || c = '\t'

/-- Whether a character is white space or the end of a line. -/
def isBlankOrEnd (c : Char) : Bool := isBlank c || c = '\n'

/-- Whether a character may not stand in a comment or in a text: the controls but the tab. -/
def isControl (c : Char) : Bool := (c.toNat < 0x20 && c ≠ '\t') || c.toNat = 0x7f

/-- Whether a character may not stand in a text that spans lines as told. -/
def isIllegal (lines : Bool) (c : Char) : Bool := isControl c && !(lines && c = '\n')

/-- A document without the white space in front. -/
def skipBlank (text : List Char) : List Char := text.dropWhile isBlank

/-! ## Escapes -/

/-- The character that a letter after a backslash stands for. -/
def escape? (c : Char) : Option Char :=
  match c with
  | 'b' => some '\x08'
  | 't' => some '\t'
  | 'n' => some '\n'
  | 'f' => some '\x0c'
  | 'r' => some '\r'
  | '"' => some '"'
  | '\\' => some '\\'
  | _ => none

/-- The number that hexadecimal digits spell. -/
def hexNumber? (digits : List Char) : Option Nat :=
  digits.foldlM (fun n c => (Hex.digitValue? c).map (n * 16 + ·)) 0

/-- The character with a number that all the given digits spell. -/
def scalar? (places : Nat) (digits : List Char) : Option Char := do
  let n ← if digits.length = places then hexNumber? digits else none
  if h : n.isValidChar then some (Char.ofNatAux n h) else none

/-- What follows a backslash at the end of a line, from the next visible character on. -/
def afterLineEnd? (text : List Char) : Option (List Char) :=
  match skipBlank text with
  | '\n' :: rest => some (rest.dropWhile isBlankOrEnd)
  | _ => none

/-- The characters of an escape, after its backslash. At the end of a line it stands for nothing. -/
def readEscape? (lines : Bool) (text : List Char) : Option (List Char × List Char) :=
  match text with
  | [] => none
  | c :: rest =>
    if lines && isBlankOrEnd c then (afterLineEnd? text).map fun rest => ([], rest)
    else if c = 'u' then (scalar? 4 (rest.take 4)).map fun c => ([c], rest.drop 4)
    else if c = 'U' then (scalar? 8 (rest.take 8)).map fun c => ([c], rest.drop 8)
    else (escape? c).map fun c => ([c], rest)

theorem length_dropWhile_le (p : Char → Bool) (text : List Char) :
    (text.dropWhile p).length ≤ text.length :=
  (List.dropWhile_sublist p).length_le

theorem length_readEscape {lines : Bool} {text chars rest : List Char}
    (h : readEscape? lines text = some (chars, rest)) : rest.length < text.length := by
  match text, h with
  | [], h => exact absurd h (by simp [readEscape?])
  | c :: more, h =>
    simp only [readEscape?] at h
    split at h
    · obtain ⟨r, hr, hrest⟩ := Option.map_eq_some_iff.1 h
      obtain ⟨-, rfl⟩ := Prod.mk.inj hrest
      simp only [afterLineEnd?] at hr
      split at hr
      · rename_i tail heq
        have hskip := length_dropWhile_le isBlank (c :: more)
        have htail := length_dropWhile_le isBlankOrEnd tail
        rw [skipBlank] at heq
        rw [heq] at hskip
        rw [← Option.some.inj hr]
        simp only [List.length_cons] at hskip ⊢
        omega
      · exact absurd hr (by simp)
    · split at h
      · obtain ⟨_, _, hrest⟩ := Option.map_eq_some_iff.1 h
        rw [← (Prod.mk.inj hrest).2]
        simp only [List.length_drop, List.length_cons]
        omega
      · split at h
        · obtain ⟨_, _, hrest⟩ := Option.map_eq_some_iff.1 h
          rw [← (Prod.mk.inj hrest).2]
          simp only [List.length_drop, List.length_cons]
          omega
        · obtain ⟨_, _, hrest⟩ := Option.map_eq_some_iff.1 h
          rw [← (Prod.mk.inj hrest).2]
          simp

/-! ## Texts -/

/-- What follows three quotes in front of a document. -/
def afterThree? (quote : Char) (text : List Char) : Option (List Char) :=
  match text with
  | a :: b :: c :: rest => if a = quote ∧ b = quote ∧ c = quote then some rest else none
  | _ => none

/-- A text in double quotes, after the opening ones. -/
def readBasic? (lines : Bool) (text : List Char) : Option (List Char × List Char) :=
  match text with
  | [] => none
  | c :: rest =>
    if c = '"' then
      if lines then
        match afterThree? '"' text with
        | some rest => some ([], rest)
        | none => (readBasic? lines rest).map fun (s, rest) => (c :: s, rest)
      else some ([], rest)
    else if c = '\\' then
      match _hescape : readEscape? lines rest with
      | none => none
      | some (chars, rest) => (readBasic? lines rest).map fun (s, rest) => (chars ++ s, rest)
    else if isIllegal lines c then none
    else (readBasic? lines rest).map fun (s, rest) => (c :: s, rest)
termination_by text.length
decreasing_by
  · simp
  · have := length_readEscape _hescape
    simp only [List.length_cons]
    omega
  · simp

/-- A text in single quotes, after the opening ones. -/
def readLiteral? (lines : Bool) : List Char → Option (List Char × List Char)
  | [] => none
  | c :: rest =>
    if c = '\'' then
      if lines then
        match afterThree? '\'' (c :: rest) with
        | some rest => some ([], rest)
        | none => (readLiteral? lines rest).map fun (s, rest) => (c :: s, rest)
      else some ([], rest)
    else if isIllegal lines c then none
    else (readLiteral? lines rest).map fun (s, rest) => (c :: s, rest)

/-- A text with up to two more quotes that stand right after it. -/
def withQuotes (quote : Char) (s rest : List Char) : List Char × List Char :=
  match rest with
  | a :: b :: more =>
    if a = quote then
      if b = quote then (s ++ [quote, quote], more) else (s ++ [quote], b :: more)
    else (s, rest)
  | [a] => if a = quote then (s ++ [quote], []) else (s, rest)
  | [] => (s, rest)

/-- A text without the line end in front. -/
def dropLineEnd : List Char → List Char
  | '\n' :: rest => rest
  | text => text

/-- A text of either form at the front of a document, for one line or for several. -/
def readQuoted? (quote : Char) (read : (lines : Bool) → List Char → Option (List Char × List Char))
    (text : List Char) : Option (List Char × List Char) :=
  match afterThree? quote text with
  | some rest => (read true (dropLineEnd rest)).map fun (s, rest) => withQuotes quote s rest
  | none => read false (text.drop 1)

/-! ## Keys -/

/-- Whether a character may stand in a bare name. -/
def isBare (c : Char) : Bool :=
  ('a' ≤ c && c ≤ 'z') || ('A' ≤ c && c ≤ 'Z') || ('0' ≤ c && c ≤ '9') || c = '-' || c = '_'

/-- A name at the front of a document. -/
def readName? (text : List Char) : Option (List Char × List Char) :=
  match text with
  | '\'' :: rest => readLiteral? false rest
  | '"' :: rest => readBasic? false rest
  | _ =>
    match text.takeWhile isBare with
    | [] => none
    | name => some (name, text.dropWhile isBare)

/-- The names of a key that has at most the given number of them, and what follows the key and the
white space after it. -/
def readKey? : (budget : Nat) → List Char → Option (List String × List Char)
  | 0, _ => none
  | budget + 1, text => do
    let (name, rest) ← readName? text
    match skipBlank rest with
    | '.' :: rest => do
      let (names, rest) ← readKey? budget (skipBlank rest)
      return (String.ofList name :: names, rest)
    | rest => return ([String.ofList name], rest)

end ContractHost.Toml
