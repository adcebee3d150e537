import TraceAudit.Text.Utf8

/-!
# White space

Two notions of white space occur in captured traffic, and they differ:

* `Text.isBlank` is the Unicode property `White_Space`, used to trim free text;
* `Text.isAsciiBlank` is space, tab, line feed, form feed and carriage return, used on the raw
  octets of a log file.

`Text.trim` removes the former from both ends.
-/

namespace TraceAudit.Text

/-- The Unicode property `White_Space`. -/
def isBlank (c : Char) : Bool :=
  let v := c.toNat
  (0x09 ≤ v && v ≤ 0x0D) || v == 0x20 || v == 0x85 || v == 0xA0 || v == 0x1680 ||
    (0x2000 ≤ v && v ≤ 0x200A) || v == 0x2028 || v == 0x2029 || v == 0x202F || v == 0x205F ||
    v == 0x3000

/-- Space, tab, line feed, form feed or carriage return. -/
def isAsciiBlank (b : UInt8) : Bool :=
  b == 0x20 || b == 0x09 || b == 0x0A || b == 0x0C || b == 0x0D

def trimStart (text : List Char) : List Char := text.dropWhile isBlank

/-- Remove the longest run at the end whose characters all satisfy `drop`. -/
def dropEndWhile (drop : Char → Bool) (text : List Char) : List Char :=
  (text.reverse.dropWhile drop).reverse

def trim (text : List Char) : List Char := dropEndWhile isBlank (trimStart text)

def isAsciiLetter (c : Char) : Bool := ('a' ≤ c && c ≤ 'z') || ('A' ≤ c && c ≤ 'Z')

def isDigit (c : Char) : Bool := '0' ≤ c && c ≤ '9'

def isUpper (c : Char) : Bool := 'A' ≤ c && c ≤ 'Z'

def isAlphanumeric (c : Char) : Bool := isAsciiLetter c || isDigit c

/-- Replace ASCII upper-case letters by their lower-case forms; all else stays. -/
def lowerAscii (c : Char) : Char :=
  if isUpper c then Char.ofNat (c.toNat + 32) else c

def toLowerAscii (text : String) : String := String.ofList (text.toList.map lowerAscii)

/-- Equality up to the case of ASCII letters. -/
def sameIgnoringCase (a b : String) : Bool := toLowerAscii a == toLowerAscii b

end TraceAudit.Text
