import TraceAudit.Json.Tree
import TraceAudit.Toml.Table
import TraceAudit.Time.Calendar

/-!
# TOML scalars

* `TomlText.basic?`, `TomlText.literal?` and their multi-line forms read strings from behind the
  opening quotes and give what follows the closing ones;
* `TomlScalar.classify?` decides what a token without quotes stands for: a truth value, an integer,
  a float or a time.
-/

namespace TraceAudit

namespace TomlText

/-- A character that a line may hold: a tab, or anything but a control character. -/
def isLineChar (c : Char) : Bool :=
  c == '\t' || (0x20 ≤ c.toNat && c.toNat ≠ 0x7F)

/-- The character that a one-letter escape stands for. -/
def escaped? : Char → Option Char
  | 'b' => some '\x08'
  | 't' => some '\t'
  | 'n' => some '\n'
  | 'f' => some '\x0c'
  | 'r' => some '\r'
  | '"' => some '"'
  | '\\' => some '\\'
  | _ => none

/-- The character of a code point, which may be no surrogate. -/
def scalar? (code : Nat) : Option Char :=
  if code < 0xD800 ∨ (0xDFFF < code ∧ code ≤ 0x10FFFF) then some (Char.ofNat code) else none

/-- Where a string stands: between characters, possibly skipping white space after an escaped line
end; after a backslash; in front of an escaped line end; or inside a numbered escape. -/
inductive Mode where
  | plain (skipping : Bool)
  | backslash
  | lineEnd
  | code (left value : Nat)

/-- Put a character in front of a text that is read. -/
def push (c : Char) (result : Option (List Char × List Char)) :
    Option (List Char × List Char) :=
  result.map fun (text, rest) => (c :: text, rest)

/-- Read a string on one line, from behind the opening quote. -/
def basic? : Mode → List Char → Option (List Char × List Char)
  | _, [] => none
  | .plain _, c :: rest =>
    if c = '"' then some ([], rest)
    else if c = '\\' then basic? .backslash rest
    else if isLineChar c then push c (basic? (.plain false) rest)
    else none
  | .backslash, c :: rest =>
    if c = 'u' then basic? (.code 4 0) rest
    else if c = 'U' then basic? (.code 8 0) rest
    else do
      let d ← escaped? c
      push d (basic? (.plain false) rest)
  | .lineEnd, _ :: _ => none
  | .code left value, c :: rest => do
    let h ← hexValue? c
    let value := 16 * value + h
    if left ≤ 1 then do
      let d ← scalar? value
      push d (basic? (.plain false) rest)
    else basic? (.code (left - 1) value) rest

/-- Read a string over several lines, from behind the opening quotes. Up to two quotes may stand in
front of the closing ones. -/
def multiBasic? : Mode → List Char → Option (List Char × List Char)
  | _, [] => none
  | .plain skipping, c :: rest =>
    if c = '"' then
      match rest with
      | '"' :: '"' :: '"' :: '"' :: rest => some (['"', '"'], rest)
      | '"' :: '"' :: '"' :: rest => some (['"'], rest)
      | '"' :: '"' :: rest => some ([], rest)
      | rest => push '"' (multiBasic? (.plain false) rest)
    else if c = '\\' then multiBasic? .backslash rest
    else if skipping ∧ (c = ' ' ∨ c = '\t' ∨ c = '\n') then multiBasic? (.plain true) rest
    else if c = '\n' then push '\n' (multiBasic? (.plain false) rest)
    else if c = '\r' then
      match rest with
      | '\n' :: rest =>
        if skipping then multiBasic? (.plain true) rest
        else push '\n' (multiBasic? (.plain false) rest)
      | _ => none
    else if isLineChar c then push c (multiBasic? (.plain false) rest)
    else none
  | .backslash, c :: rest =>
    if c = 'u' then multiBasic? (.code 4 0) rest
    else if c = 'U' then multiBasic? (.code 8 0) rest
    else if c = ' ' ∨ c = '\t' then multiBasic? .lineEnd rest
    else if c = '\n' then multiBasic? (.plain true) rest
    else if c = '\r' then
      match rest with
      | '\n' :: rest => multiBasic? (.plain true) rest
      | _ => none
    else do
      let d ← escaped? c
      push d (multiBasic? (.plain false) rest)
  | .lineEnd, c :: rest =>
    if c = ' ' ∨ c = '\t' then multiBasic? .lineEnd rest
    else if c = '\n' then multiBasic? (.plain true) rest
    else if c = '\r' then
      match rest with
      | '\n' :: rest => multiBasic? (.plain true) rest
      | _ => none
    else none
  | .code left value, c :: rest => do
    let h ← hexValue? c
    let value := 16 * value + h
    if left ≤ 1 then do
      let d ← scalar? value
      push d (multiBasic? (.plain false) rest)
    else multiBasic? (.code (left - 1) value) rest

/-- Read a string without escapes on one line, from behind the opening quote. -/
def literal? : List Char → Option (List Char × List Char)
  | [] => none
  | c :: rest =>
    if c = '\'' then some ([], rest)
    else if isLineChar c then push c (literal? rest)
    else none

/-- Read a string without escapes over several lines, from behind the opening quotes. -/
def multiLiteral? : List Char → Option (List Char × List Char)
  | [] => none
  | c :: rest =>
    if c = '\'' then
      match rest with
      | '\'' :: '\'' :: '\'' :: '\'' :: rest => some (['\'', '\''], rest)
      | '\'' :: '\'' :: '\'' :: rest => some (['\''], rest)
      | '\'' :: '\'' :: rest => some ([], rest)
      | rest => push '\'' (multiLiteral? rest)
    else if c = '\n' then push '\n' (multiLiteral? rest)
    else if c = '\r' then
      match rest with
      | '\n' :: rest => push '\n' (multiLiteral? rest)
      | _ => none
    else if isLineChar c then push c (multiLiteral? rest)
    else none

/-- A line end right behind the opening quotes of a multi-line string does not count. -/
def dropLineEnd : List Char → List Char
  | '\n' :: rest => rest
  | '\r' :: '\n' :: rest => rest
  | text => text

end TomlText

namespace TomlScalar

def isTokenChar (c : Char) : Bool :=
  Text.isAlphanumeric c || c == '_' || c == '+' || c == '-' || c == '.' || c == ':'

/-- The digits of a numeral in which single underscores may stand between digits. -/
def digits? (isDigit : Char → Bool) (text : List Char) : Option (List Char) :=
  let groups := Text.splitOn '_' text
  if groups.all fun g => !g.isEmpty && g.all isDigit then some groups.flatten else none

def valueIn (base : Nat) (digits : List Char) : Nat :=
  digits.foldl (fun n c => base * n + (hexValue? c).getD 0) 0

/-- The sign of a numeral, and the rest of it. -/
def splitSign : List Char → Bool × List Char
  | '+' :: rest => (false, rest)
  | '-' :: rest => (true, rest)
  | text => (false, text)

/-- An integer within 64 bits. -/
def within64 (i : Int) : Option Int :=
  if -(Word.half64 : Int) ≤ i ∧ i < Word.half64 then some i else none

/-- An integer in a base, from behind its mark. -/
def based? (base : Nat) (isDigit : Char → Bool) (text : List Char) : Option Int := do
  let ds ← digits? isDigit text
  within64 (valueIn base ds)

/-- The whole part of a numeral: no zero may stand in front. -/
def wholePart? (text : List Char) : Option (List Char) := do
  let ds ← digits? Text.isDigit text
  if text.head? = some '0' ∧ text ≠ ['0'] then none else some ds

def integer? (token : List Char) : Option Int :=
  match token with
  | '0' :: 'x' :: rest => based? 16 (fun c => (hexValue? c).isSome) rest
  | '0' :: 'o' :: rest => based? 8 (fun c => '0' ≤ c && c ≤ '7') rest
  | '0' :: 'b' :: rest => based? 2 (fun c => c == '0' || c == '1') rest
  | token => do
    let (negative, text) := splitSign token
    let ds ← wholePart? text
    let n : Int := valueIn 10 ds
    within64 (if negative then -n else n)

/-- The power of ten of a numeral, from behind its mark. -/
def power? (text : List Char) : Option (Bool × List Char) :=
  let (negative, text) := splitSign text
  (digits? Text.isDigit text).map fun ds => (negative, ds)

/-- The numeral of a float: it has a point, a power of ten or both. -/
def numeral? (token : List Char) : Option Numeral := do
  let (negative, text) := splitSign token
  let mantissa := text.takeWhile fun c => !(c == 'e' || c == 'E')
  let power ← match text.drop mantissa.length with
    | [] => some none
    | _ :: rest => (power? rest).map some
  match Text.splitOnce '.' mantissa with
  | none => if power.isNone then none else some ⟨negative, ← wholePart? mantissa, [], power⟩
  | some (whole, fraction) =>
    some ⟨negative, ← wholePart? whole, ← digits? Text.isDigit fraction, power⟩

/-- The magnitude of the numeral rounds to an infinity. The place of its leading digit decides this,
except for numerals as long as the greatest double. -/
def isHuge (n : Numeral) : Bool :=
  let digits := (n.whole ++ n.fraction).dropWhile (· == '0')
  let exponent := n.exponent - n.fraction.length
  let places : Int := digits.length + exponent
  if digits = [] ∨ places < 309 then false
  else if 309 < places then true
  else
    let magnitude := Decimal.valueOf digits
    (Double.ofRatio? (magnitude * Nat.pow 10 exponent.toNat)
      (Nat.pow 10 (-exponent).toNat)).isNone

/-- The text is a float. One that rounds to the positive infinity is refused; the negative infinity
stands for everything below the least double. -/
def isFloat (token : List Char) : Bool :=
  let (_, text) := splitSign token
  text = ['i', 'n', 'f'] || text = ['n', 'a', 'n'] ||
    match numeral? token with
    | none => false
    | some n => n.negative || !isHuge n

/-- A numeral of exactly `width` digits, at most `max`, and what follows. -/
def field? (width max : Nat) (text : List Char) : Option (Nat × List Char) :=
  let numeral := text.take width
  if numeral.length = width ∧ numeral.all Text.isDigit ∧ valueIn 10 numeral ≤ max then
    some (valueIn 10 numeral, text.drop width)
  else none

def after? (c : Char) : List Char → Option (List Char)
  | d :: rest => if c = d then some rest else none
  | [] => none

/-- What follows a date at the start of a text. -/
def afterDate? (text : List Char) : Option (List Char) := do
  let (year, text) ← field? 4 9999 text
  let (month, text) ← field? 2 12 (← after? '-' text)
  let (day, text) ← field? 2 31 (← after? '-' text)
  if 1 ≤ day ∧ day ≤ Calendar.daysInMonth year month then some text else none

/-- What follows a time of day at the start of a text. -/
def afterTime? (text : List Char) : Option (List Char) := do
  let (_, text) ← field? 2 23 text
  let (_, text) ← field? 2 59 (← after? ':' text)
  let (_, text) ← field? 2 60 (← after? ':' text)
  match text with
  | '.' :: fraction =>
    let rest := fraction.dropWhile Text.isDigit
    if rest.length < fraction.length then some rest else none
  | text => some text

/-- The text is a time of day, with an offset if that is `allowed`. -/
def isTime (allowed : Bool) (text : List Char) : Bool :=
  match afterTime? text with
  | none => false
  | some [] => true
  | some ['Z'] | some ['z'] => allowed
  | some (sign :: offset) =>
    let zone : Option Unit := do
      let (_, text) ← field? 2 23 offset
      let (_, text) ← field? 2 59 (← after? ':' text)
      if text = [] then some () else none
    allowed && (sign == '+' || sign == '-') && zone.isSome

def isDate (text : List Char) : Bool := afterDate? text = some []

/-- The text is a date, a time of day, or both joined by a `T`. -/
def isMoment (token : List Char) : Bool :=
  isTime false token ||
    match afterDate? token with
    | some [] => true
    | some ('T' :: time) | some ('t' :: time) => isTime true time
    | _ => false

/-- What a token stands for. -/
def classify? (token : List Char) : Option TomlValue :=
  if token = "true".toList then some (.boolean true)
  else if token = "false".toList then some (.boolean false)
  else
    match integer? token with
    | some i => some (.integer i)
    | none => if isFloat token || isMoment token then some .other else none

/-- The value of a token at the start of a text, and what follows. A date and a time of day may be
joined by a space. -/
def read? (text : List Char) : Option (TomlValue × List Char) := do
  let token := text.takeWhile isTokenChar
  let rest := text.dropWhile isTokenChar
  let value ← classify? token
  if isDate token then
    match rest with
    | ' ' :: more =>
      if isTime true (more.takeWhile isTokenChar) then some (value, more.dropWhile isTokenChar)
      else some (value, rest)
    | _ => some (value, rest)
  else some (value, rest)

end TomlScalar
end TraceAudit
