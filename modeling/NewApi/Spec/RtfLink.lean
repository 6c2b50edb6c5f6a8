import NewApi.Spec.Basic

/-!
# Links in rich text

`pkg/markdownrtf/rtf.go`: the escapes of a text, and the field of a link. A text is a list of characters; `Reader` is a
reader of rich text, which shows UTF-16 units.
-/

namespace NewApi.Rtf

/-- `strings.TrimSpace` -/
def trim (text : List Char) : List Char := (text.dropWhile isSpace).rdropWhile isSpace

def trimPrefix (start text : List Char) : List Char := if start <+: text then text.drop start.length else text

def itoa (value : ℤ) : List Char :=
  if value < 0 then '-' :: Nat.toDigits 10 value.natAbs else Nat.toDigits 10 value.natAbs

def escapeUnit (unit : ℕ) : List Char :=
  let value : ℤ := if unit > 32767 then unit - 65536 else unit
  '\\' :: 'u' :: itoa value ++ ['?']

def surrogatePair (character : ℕ) : ℕ × ℕ :=
  let value := character - 0x10000
  (0xD800 + value >>> 10, 0xDC00 + (value &&& 0x3FF))

def escapeRune (c : Char) : List Char :=
  if c = '\\' ∨ c = '{' ∨ c = '}' then ['\\', c]
  else if c = '\t' then ['\\', 't', 'a', 'b', ' ']
  else if c = '\n' then ['\\', 'l', 'i', 'n', 'e', ' ']
  else if c.toNat < 0x20 then []
  else if c.toNat < 0x7f then [c]
  else if c.toNat > 0xffff then escapeUnit (surrogatePair c.toNat).1 ++ escapeUnit (surrogatePair c.toNat).2
  else escapeUnit c.toNat

def escapeString (text : List Char) : List Char := text.flatMap escapeRune

def escapeFieldTarget (target : List Char) : List Char :=
  escapeString (target.flatMap fun c => if c = '\x22' then ['%', '2', '2'] else [c])

def stripRtfControl (inControl : Bool) : List Char → List Char
  | [] => []
  | c :: rtf =>
    if c = '\\' then stripRtfControl true rtf
    else if inControl then stripRtfControl (c ∉ [' ', ';', '}', '{']) rtf
    else if c = '{' ∨ c = '}' then stripRtfControl false rtf
    else c :: stripRtfControl false rtf

/-- The label is more than the target, which is then shown behind it. -/
def ShowsTarget (cleanLabel target : List Char) : Prop :=
  cleanLabel ≠ [] ∧ cleanLabel ≠ target ∧ cleanLabel ≠ trim (escapeString target) ∧
    cleanLabel ≠ trimPrefix "https://".toList target ∧ cleanLabel ≠ trimPrefix "http://".toList target
  deriving Decidable

def cleanLabel (visibleLabel : List Char) : List Char := trim (stripRtfControl false visibleLabel)

def linkRTF (visibleLabel target : List Char) : List Char :=
  let cleanLabel := cleanLabel visibleLabel
  let cleanTarget := trim (escapeString target)
  let visible :=
    if ShowsTarget cleanLabel target then visibleLabel ++ [' ', '('] ++ cleanTarget ++ [')']
    else if escapeString cleanLabel = [] then cleanTarget else escapeString cleanLabel
  "\x7b\\field\x7b\\*\\fldinst\x7bHYPERLINK \x22".toList ++ escapeFieldTarget target ++
    ("\x22\x7d\x7d\x7b\\fldrslt\x7b\\ul\\cf1 ".toList ++ (visible ++ "\x7d\x7d\x7d".toList))

def utf16 (c : Char) : List ℕ :=
  if c.toNat > 0xffff then [0xD800 + (c.toNat - 0x10000) / 1024, 0xDC00 + (c.toNat - 0x10000) % 1024] else [c.toNat]

/-- The text without its control characters, but with tabs and newlines -/
def labelText (text : List Char) : List ℕ :=
  text.flatMap fun c => if c.toNat < 0x20 ∧ c ≠ '\t' ∧ c ≠ '\n' then [] else utf16 c

/-- `skip` is the character that stands for a unit where units are not known. -/
inductive Mode
  | text | control | word (name : List Char) | skip
  deriving DecidableEq

/-- `hidden` is the depth of the group of a `\fldinst`, whose text is not shown. -/
structure Reader where
  mode : Mode := .text
  depth : ℕ := 0
  hidden : Option ℕ := none
  deriving DecidableEq

namespace Reader

def shows (r : Reader) (units : List ℕ) : List ℕ := if r.hidden = none then units else []

def plain (r : Reader) (c : Char) : Reader × List ℕ :=
  let r' := { r with mode := .text }
  if c = '\\' then ({ r with mode := .control }, [])
  else if c = '{' then ({ r' with depth := r.depth + 1 }, [])
  else if c = '}' then
    ({ r' with depth := r.depth - 1, hidden := if r.hidden = some r.depth then none else r.hidden }, [])
  else if r.mode = .skip ∨ c = '\n' ∨ c = '\r' then (r', [])
  else (r', r.shows (utf16 c))

/-- The unit of a control word `\u` -/
def unit? : List Char → Option ℤ
  | 'u' :: number =>
    if number.all Char.isDigit then some (Nat.ofDigitChars 10 number 0)
    else if number.head? = some '-' then some (-Nat.ofDigitChars 10 number.tail 0) else none
  | _ => none

def perform (r : Reader) (name : List Char) : Reader × List ℕ :=
  let r' := { r with mode := .text }
  match unit? name with
  | some value => ({ r with mode := .skip }, r.shows [(value % 65536).toNat])
  | none =>
    if name = ['t', 'a', 'b'] then (r', r.shows [9])
    else if name = ['l', 'i', 'n', 'e'] then (r', r.shows [10])
    else if name = "fldinst".toList then ({ r' with hidden := some r.depth }, [])
    else (r', [])

def step (r : Reader) (c : Char) : Reader × List ℕ :=
  match r.mode with
  | .text | .skip => r.plain c
  | .control =>
    if c.isAlpha then ({ r with mode := .word [c] }, [])
    else ({ r with mode := .text }, if c = '\\' ∨ c = '{' ∨ c = '}' then r.shows [c.toNat] else [])
  | .word name =>
    if c.isDigit ∨ c = '-' ∨ c.isAlpha ∧ name.all Char.isAlpha then ({ r with mode := .word (name ++ [c]) }, [])
    else
      -- a space behind a control word belongs to it
      let (r, units) := r.perform name
      if c = ' ' then (r, units) else ((r.plain c).1, units ++ (r.plain c).2)

def read (r : Reader) : List Char → Reader × List ℕ
  | [] => (r, [])
  | c :: rtf => (((r.step c).1.read rtf).1, (r.step c).2 ++ ((r.step c).1.read rtf).2)

end Reader

/-- What is shown of a document -/
def shownText (rtf : List Char) : List ℕ := (({} : Reader).read rtf).2

end NewApi.Rtf
