import TraceAudit.Json.Tree

/-!
# Faults of JSON texts

`Json.ofBytes` reads a JSON text and tells what is wrong with one that it refuses. `JsonFault.find`
looks for the fault: it runs the machine of `JsonTree.read` over the octets, each as a character of
its own, which changes nothing outside of strings, where all characters are single octets.

* `Reader.refusal` words the refusal of a character by the state that refuses it;
* `Reader.overlooked?` finds what the machine lets pass because it does not evaluate: nesting beyond
  the limit, half of a surrogate pair, octets that are no text, numbers beyond the greatest double;
* `Reader.unfinished?` is the fault of a text that ends in a state.

A fault is placed by the number of octets up to and with the one that shows it. That octets of a
string are no text is noticed at the closing quote, and placed at the first octet that spoils it.
-/

namespace TraceAudit

/-- What is wrong with a JSON text. -/
inductive JsonFaultKind where
  | endInValue
  | endInString
  | endInList
  | endInObject
  | noColon
  | noListSeparator
  | noObjectSeparator
  | noKey
  | noValue
  | badWord
  | badEscape
  | badNumber
  | hugeNumber
  | badCodePoint
  | controlCharacter
  | loneSurrogate
  | halfSurrogate
  | trailingComma
  | trailingText
  | tooDeep
deriving DecidableEq, Repr, Inhabited

def JsonFaultKind.words : JsonFaultKind → String
  | .endInValue => "EOF while parsing a value"
  | .endInString => "EOF while parsing a string"
  | .endInList => "EOF while parsing a list"
  | .endInObject => "EOF while parsing an object"
  | .noColon => "expected `:`"
  | .noListSeparator => "expected `,` or `]`"
  | .noObjectSeparator => "expected `,` or `\x7d`"
  | .noKey => "key must be a string"
  | .noValue => "expected value"
  | .badWord => "expected ident"
  | .badEscape => "invalid escape"
  | .badNumber => "invalid number"
  | .hugeNumber => "number out of range"
  | .badCodePoint => "invalid unicode code point"
  | .controlCharacter => "control character (\\u0000-\\u001F) found while parsing a string"
  | .loneSurrogate => "lone leading surrogate in hex escape"
  | .halfSurrogate => "unexpected end of hex escape"
  | .trailingComma => "trailing comma"
  | .trailingText => "trailing characters"
  | .tooDeep => "recursion limit exceeded"

/-- What is wrong with a JSON text, and where: the line, from 1, and the number of octets of the
line up to and with the one that shows the fault. -/
structure JsonFault where
  kind : JsonFaultKind
  line : Nat
  column : Nat
deriving DecidableEq, Repr, Inhabited

def JsonFault.message (f : JsonFault) : String :=
  s!"{f.kind.words} at line {f.line} column {f.column}"

/-! ## What is wrong in a state -/

namespace Numeral

/-- The largest power of ten that is read. -/
def maxPower : Nat := 2147483647

/-- The written power of ten is too large, and the number is not zero. -/
def hasHugePower (n : Numeral) : Bool :=
  match n.power with
  | some (false, digits) =>
    maxPower < Decimal.valueOf digits && (n.whole ++ n.fraction).any (· != '0')
  | _ => false

end Numeral

namespace Reader

/-- The fault of a text that ends behind a complete value in open containers. -/
def openEnd : List Frame → JsonFaultKind
  | .items _ :: _ => .endInList
  | _ => .endInObject

/-- The fault of a character behind a complete value. -/
def noSeparator : List Frame → JsonFaultKind
  | [] => .trailingText
  | .items _ :: _ => .noListSeparator
  | _ :: _ => .noObjectSeparator

/-- The fault of a text that ends in this state, if it is not complete. -/
def unfinished? (r : Reader) : Option JsonFaultKind :=
  match r.mode with
  | .value | .nextKey | .word _ _ => some .endInValue
  | .firstItem => some .endInList
  | .firstKey | .colon _ => some .endInObject
  | .separator => some (openEnd r.frames)
  | .text _ _ _ => some .endInString
  | .numeral numeral phase =>
    if !phase.complete then some .endInValue
    else if numeral.value?.isNone then some .hugeNumber
    else if r.frames.isEmpty then none
    else some (openEnd r.frames)
  | .finished _ => none

/-- The fault of a character that this state refuses. -/
def refusal (r : Reader) (c : Char) : JsonFaultKind :=
  match r.mode with
  | .value =>
    match r.frames, c with
    | .items _ :: _, ']' => .trailingComma
    | _, _ => .noValue
  | .firstItem => .noValue
  | .firstKey => .noKey
  | .nextKey => if c = '\x7d' then .trailingComma else .noKey
  | .colon _ => .noColon
  | .separator => noSeparator r.frames
  | .text _ _ .none => .controlCharacter
  | .text _ _ _ => .badEscape
  | .numeral _ phase =>
    if !phase.complete ∨ (phase = .zero ∧ Text.isDigit c) then .badNumber
    else noSeparator r.frames
  | .word _ _ => .badWord
  | .finished _ => .trailingText

/-- A fault of a character inside a string that the state does not refuse by itself, and how many
octets in front of the character it lies. `raw` holds the octets of the string so far, last one
first. -/
def overlookedInText? (raw : Bytes) (fragment : Fragment) (escape : Escape) (c : Char) :
    Option (JsonFaultKind × Nat) :=
  match escape with
  | .none =>
    if fragment.high.isSome ∧ c ≠ '\\' then some (.halfSurrogate, 0)
    else if c = '"' then
      let spoiled := raw.length - Utf8.intact raw.reverse
      if spoiled = 0 then none else some (.badCodePoint, spoiled)
    else none
  | .backslash => if fragment.high.isSome ∧ c ≠ 'u' then some (.halfSurrogate, 0) else none
  | .unit seen value =>
    match hexValue? c with
    | some h =>
      if seen = 3 ∧ (fragment.pushUnit (16 * value + h)).broken then some (.loneSurrogate, 0)
      else none
    | none => none

/-- A fault of a character that the state does not refuse by itself, and how many octets in front of
the character it lies. -/
def overlooked? (r : Reader) (raw : Bytes) (c : Char) : Option (JsonFaultKind × Nat) :=
  match r.mode with
  | .value | .firstItem =>
    if (c = '[' ∨ c = '\x7b') ∧ Json.maxDepth ≤ r.frames.length then some (.tooDeep, 0) else none
  | .text _ fragment escape => overlookedInText? raw fragment escape c
  | .numeral numeral phase =>
    match numeral.extend? phase c with
    | some (numeral, .power) => if numeral.hasHugePower then some (.hugeNumber, 0) else none
    | _ => none
  | _ => none

/-- A complete number beyond the greatest double ends in front of this character. -/
def endsHuge (r : Reader) (c : Char) : Bool :=
  match r.mode with
  | .numeral numeral phase =>
    phase.complete && (numeral.extend? phase c).isNone && numeral.value?.isNone
  | _ => false

/-- How far the four digits of an escape reach beyond this character, if it is one of them or stands
in the place of one. -/
def reach (r : Reader) : Nat :=
  match r.mode with
  | .text _ _ (.unit seen _) => 3 - seen
  | _ => 0

/-- The fault of a refused character at `offset`, with `left` octets behind it. The digits of an
escape are taken together, so they have to be there before one of them can be wrong. -/
def refusalAt (r : Reader) (c : Char) (offset left : Nat) : JsonFaultKind × Nat :=
  if left < r.reach then (.endInString, offset + 1 + left)
  else (r.refusal c, offset + 1 + r.reach)

/-- The first fault of the octets from `offset` on, with its place. -/
def firstFault? (r : Reader) (raw : Bytes) (offset : Nat) : Bytes → Option (JsonFaultKind × Nat)
  | [] => r.unfinished?.map (·, offset)
  | b :: rest =>
    let c := Char.ofNat b.toNat
    if r.endsHuge c then some (.hugeNumber, offset)
    else
      match r.overlooked? raw c, r.step c with
      | some (kind, back), _ => some (kind, offset + 1 - back)
      | none, none => some (r.refusalAt c offset rest.length)
      | none, some next =>
        let raw := match r.mode with
          | .text _ _ _ => b :: raw
          | _ => []
        firstFault? next raw (offset + 1) rest

end Reader

/-! ## Reading with faults -/

namespace JsonFault

/-- A fault that shows in the last of the first `place` octets. -/
def ofPlace (bytes : Bytes) (kind : JsonFaultKind) (place : Nat) : JsonFault :=
  let before := bytes.take place
  { kind
    line := 1 + before.count 0x0A
    column := (before.reverse.takeWhile (· != 0x0A)).length }

/-- The fault of octets that are no JSON text. -/
def find (bytes : Bytes) : JsonFault :=
  match Reader.start.firstFault? [] 0 bytes with
  | some (kind, place) => ofPlace bytes kind place
  | none => ofPlace bytes .endInValue bytes.length

end JsonFault

/-- Read a JSON text given as octets, or tell what is wrong with it. -/
def Json.ofBytes (bytes : Bytes) : Except JsonFault Json :=
  match Json.ofBytes? bytes with
  | some json => .ok json
  | none => .error (JsonFault.find bytes)

end TraceAudit
