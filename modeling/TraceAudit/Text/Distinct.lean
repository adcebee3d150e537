/-!
# Collections of texts

`distinct` lists the texts that occur in a collection, in the order of their code points.
-/

namespace TraceAudit.Text

/-- The texts that occur, in order, each once. -/
def distinct (texts : List String) : List String :=
  (texts.mergeSort fun a b => decide (a ≤ b)).eraseReps

end TraceAudit.Text
