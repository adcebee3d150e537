/-!
# UTF-8

Captured files hold bytes; everything read from them is text. This file defines:

* `Bytes`, a finite sequence of octets;
* `Utf8.decode`, which reads well-formed UTF-8 and refuses every other sequence (overlong forms,
  surrogates, values above `U+10FFFF`, stray or missing continuation octets);
* `Utf8.intact`, the number of octets in front of the first one that spoils a sequence;
* `Utf8.encode` and `Utf8.ofString`, which write text back.
-/

namespace TraceAudit

abbrev Bytes := List UInt8

namespace Utf8

/-- The six payload bits of a continuation octet, when `b` is one. -/
def tail? (b : UInt8) : Option Nat :=
  if 0x80 ≤ b ∧ b ≤ 0xBF then some (b.toNat - 0x80) else none

/-- The value of a lead octet `a` followed by one continuation octet. -/
def two? (a b : UInt8) : Option Char := do
  let y ← tail? b
  if 0xC2 ≤ a then some (Char.ofNat ((a.toNat - 0xC0) * 64 + y)) else none

/-- The value of a lead octet `a` followed by two continuation octets. -/
def three? (a b c : UInt8) : Option Char := do
  let y ← tail? b
  let z ← tail? c
  let v := (a.toNat - 0xE0) * 4096 + y * 64 + z
  if v < 0x800 ∨ (0xD800 ≤ v ∧ v ≤ 0xDFFF) then none else some (Char.ofNat v)

/-- The value of a lead octet `a` followed by three continuation octets. -/
def four? (a b c d : UInt8) : Option Char := do
  let y ← tail? b
  let z ← tail? c
  let w ← tail? d
  let v := (a.toNat - 0xF0) * 262144 + y * 4096 + z * 64 + w
  if v < 0x10000 ∨ 0x10FFFF < v then none else some (Char.ofNat v)

/-- Read a whole sequence of octets as text; `none` when it is not well-formed UTF-8. -/
def decode : Bytes → Option (List Char)
  | [] => some []
  | a :: rest =>
    if a < 0x80 then (Char.ofNat a.toNat :: ·) <$> decode rest
    else if a < 0xE0 then
      match rest with
      | b :: rest => do
        let c ← two? a b
        (c :: ·) <$> decode rest
      | _ => none
    else if a < 0xF0 then
      match rest with
      | b :: c :: rest => do
        let c ← three? a b c
        (c :: ·) <$> decode rest
      | _ => none
    else if a < 0xF5 then
      match rest with
      | b :: c :: d :: rest => do
        let c ← four? a b c d
        (c :: ·) <$> decode rest
      | _ => none
    else none

/-- The number of octets at the start that are well-formed UTF-8, up to the end or to the first
octet of a character that is not. -/
def intact : Bytes → Nat
  | [] => 0
  | a :: rest =>
    if a < 0x80 then intact rest + 1
    else if a < 0xE0 then
      match rest with
      | b :: rest => if (two? a b).isSome then intact rest + 2 else 0
      | _ => 0
    else if a < 0xF0 then
      match rest with
      | b :: c :: rest => if (three? a b c).isSome then intact rest + 3 else 0
      | _ => 0
    else if a < 0xF5 then
      match rest with
      | b :: c :: d :: rest => if (four? a b c d).isSome then intact rest + 4 else 0
      | _ => 0
    else 0

def encode (text : List Char) : Bytes :=
  text.flatMap String.utf8EncodeChar

def ofString (text : String) : Bytes := encode text.toList

/-- Read a whole sequence of octets as a string. -/
def toString? (bytes : Bytes) : Option String := String.ofList <$> decode bytes

end Utf8
end TraceAudit
