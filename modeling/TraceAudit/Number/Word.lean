/-!
# Machine words

The bounds of 64-bit integers, as natural numbers.
-/

namespace TraceAudit.Word

/-- The number of 64-bit words, `2 ^ 64`: the least natural number that is no unsigned word. -/
def count64 : Nat := 18446744073709551616

/-- Half the number of words, `2 ^ 63`: the least natural number that is no signed word. -/
def half64 : Nat := 9223372036854775808

end TraceAudit.Word
