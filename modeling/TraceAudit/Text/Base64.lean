import TraceAudit.Text.Utf8

/-!
# Base 64

`Base64.decode?` reads the standard alphabet with padding. It accepts canonical texts only: whole
groups of four, padding nowhere but at the end and as long as needed, and no stray bits in front of
the padding. `Base64.decode` also tells what is wrong with other texts: `Base64Fault.find` looks for
the first octet that cannot stand where it stands, and only then at the length and the padding.
-/

namespace TraceAudit

/-- What is wrong with a text in base 64. Places are numbers of octets. -/
inductive Base64Fault where
  | badSymbol (symbol place : Nat)
  | badLength (length : Nat)
  | badPadding
  /-- The last digit has bits that are not part of an octet. -/
  | strayBits (symbol place : Nat)
deriving DecidableEq, Repr

def Base64Fault.message : Base64Fault → String
  | .badSymbol symbol place => s!"Invalid symbol {symbol}, offset {place}."
  | .badLength length => s!"Invalid input length: {length}"
  | .badPadding => "Invalid padding"
  | .strayBits symbol place => s!"Invalid last symbol {symbol}, offset {place}."

namespace Base64

def digit? (c : Char) : Option Nat :=
  if 'A' ≤ c ∧ c ≤ 'Z' then some (c.toNat - 'A'.toNat)
  else if 'a' ≤ c ∧ c ≤ 'z' then some (c.toNat - 'a'.toNat + 26)
  else if '0' ≤ c ∧ c ≤ '9' then some (c.toNat - '0'.toNat + 52)
  else if c = '+' then some 62
  else if c = '/' then some 63
  else none

/-- The octet of the eight low bits. -/
def octet (n : Nat) : UInt8 := UInt8.ofNat (n % 256)

/-- Read a padded text; nothing when it is not canonical. -/
def decode? : List Char → Option Bytes
  | [] => some []
  | [a, b, '=', '='] => do
    let x ← digit? a
    let y ← digit? b
    if y % 16 = 0 then some [octet (x * 4 + y / 16)] else none
  | [a, b, c, '='] => do
    let x ← digit? a
    let y ← digit? b
    let z ← digit? c
    if z % 4 = 0 then some [octet (x * 4 + y / 16), octet (y * 16 + z / 4)] else none
  | a :: b :: c :: d :: rest => do
    let x ← digit? a
    let y ← digit? b
    let z ← digit? c
    let w ← digit? d
    let bytes ← decode? rest
    some (octet (x * 4 + y / 16) :: octet (y * 16 + z / 4) :: octet (z * 64 + w) :: bytes)
  | _ => none

def isDigit (b : UInt8) : Bool := (digit? (Char.ofNat b.toNat)).isSome

def pad : UInt8 := 0x3D

end Base64

namespace Base64Fault

open Base64

/-- The fault of the last group, which starts at `start`. The first octets of the group were read:
`digits` digits, the last of which is `last`, and then `pads` octets of padding. -/
def ofLastGroup (start digits pads : Nat) (last : UInt8) : Bytes → Base64Fault
  | [] =>
    if digits < 2 then .badLength (start + digits)
    else if (digits + pads) % 4 ≠ 0 then .badPadding
    else .strayBits last.toNat (start + digits - 1)
  | b :: rest =>
    if b = pad then
      if digits < 2 then .badSymbol b.toNat (start + digits)
      else ofLastGroup start digits (pads + 1) last rest
    else if 0 < pads then .badSymbol pad.toNat (start + digits)
    else if isDigit b then ofLastGroup start (digits + 1) pads b rest
    else .badSymbol b.toNat (start + digits)

/-- The fault of groups of four, of which all but the last one hold digits only. -/
def ofGroups (start : Nat) : Bytes → Base64Fault
  | a :: b :: c :: d :: e :: rest =>
    match [a, b, c, d].findIdx? (!isDigit ·) with
    | some i => .badSymbol (([a, b, c, d].getD i 0).toNat) (start + i)
    | none => ofGroups (start + 4) (e :: rest)
  | last => ofLastGroup start 0 0 0 last

/-- The fault of a text that is not canonical. A single octet behind the last whole group is looked
at first. -/
def find (text : Bytes) : Base64Fault :=
  let last := text.getLast?.getD pad
  if text.length % 4 = 1 ∧ last ≠ pad ∧ !isDigit last then
    .badSymbol last.toNat (text.length - 1)
  else ofGroups 0 text

end Base64Fault

/-- Read a padded text, or tell what is wrong with it. -/
def Base64.decode (text : List Char) : Except Base64Fault Bytes :=
  match Base64.decode? text with
  | some bytes => .ok bytes
  | none => .error (Base64Fault.find (Utf8.encode text))

end TraceAudit
