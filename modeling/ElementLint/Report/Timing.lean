import ElementLint.Json.Basic

/-!
# Timings

How long the parts of a run took, in milliseconds. Times are shown to three decimal places, and a time
that is negative or no number is shown as zero.
-/

namespace ElementLint

structure Timing where
  parse : Double := .zero
  traversal : Double := .zero
  interpretation : Double := .zero

namespace Timing

def rounded (ms : Double) : Double := ms.positivePart.roundTo 3

def total (t : Timing) : Double := t.parse + t.traversal + t.interpretation

def shown (t : Timing) : Fields Double :=
  [("parse", rounded t.parse), ("traversal", rounded t.traversal),
    ("interpretation", rounded t.interpretation), ("total", rounded t.total)]

def toJson (t : Timing) : Json :=
  .object (t.shown.map fun (name, ms) => (name, .float ms))

def line (t : Timing) : Text :=
  "[timing] " ++
    Text.joinWith ", " (t.shown.map fun (name, ms) => name ++ ": " ++ ms.shown ++ " ms") ++ "."

end Timing

end ElementLint
