import TraceAudit.Text.Decimal

/-!
# New request ids

A new id is a counter, padded with zeros, followed by random characters up to a fixed length. The
counter alone makes the ids of one process distinct, the random part keeps processes apart.
-/

namespace TraceAudit.RequestId

def length : Nat := 36

def alphabet : List Char := "ABCDEFGHIJKLMNOPQRSTUVWXYZ0123456789".toList

def counterDigits : Nat := 10

/-- The id of a counter, with the random numbers `draws` for the characters behind it. -/
def make (counter : Nat) (draws : Nat → Nat) : String :=
  let head := Decimal.padded counterDigits counter
  let tail := (List.range (length - head.length)).map fun i =>
    alphabet.getD (draws i % alphabet.length) 'A'
  head ++ String.ofList tail

end TraceAudit.RequestId
