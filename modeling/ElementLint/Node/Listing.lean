import ElementLint.Json.Order
import ElementLint.Node.Walk

/-!
# Listings of nodes

A listing has a line for each visited node: where it stands, its kind, a label that tells it from others of
its kind, and the kinds of its nearest ancestors. It may be cut down to the nodes between two lines of
the source text; the bounds are numbers of any kind.
-/

namespace ElementLint

namespace Node

def dumpLabel : Node → Text
  | .identifier _ name => name
  | .literal _ _ raw => raw
  | .method _ name _ _ =>
    match name with
    | none | some [] => "<computed>"
    | some name => name
  | .other _ type _ => Text.ofString type
  | .taggedTemplate .. => Text.ofString taggedTemplateType
  | .binary _ operator _ _ | .unary _ operator _ => Text.ofString operator
  | .logical _ operator _ _ => Text.ofString operator.symbol
  | _ => []

end Node

namespace Listing

def ancestorLimit : Nat := 3

def line (visits : Array Visit) (v : Visit) : Text :=
  let ancestors := ancestorKinds visits ancestorLimit v.parent
  "line=" ++ Text.ofNat v.node.pos.line ++ " column=" ++ Text.ofNat v.node.pos.column ++
    " kind=" ++ Text.ofString v.node.kind.name ++ " label=" ++ v.node.dumpLabel ++ " parents=" ++
    Text.joinWith " -> " (ancestors.map fun k => Text.ofString k.name)

/-- Why a line number cannot be compared with a bound. -/
structure BoundError where
  /-- Whether the bound is the first line that is asked for, and not the last one. -/
  atFirst : Bool
  bound : Json
deriving DecidableEq

def BoundError.message (e : BoundError) : Text :=
  Json.Unordered.message (if e.atFirst then "<" else ">") ⟨.int 0, e.bound⟩

/-- Whether a line number is asked for; all are unless both bounds are given. A line before the first
one is not compared with the last one. -/
def isAskedFor (first last : Json) (line : Nat) : Except BoundError Bool :=
  match first, last with
  | .null, _ | _, .null => .ok true
  | first, last =>
    match Json.less (.int line) first with
    | .error _ => .error ⟨true, first⟩
    | .ok true => .ok false
    | .ok false =>
      match Json.less last (.int line) with
      | .error _ => .error ⟨false, last⟩
      | .ok isAfter => .ok !isAfter

def lines (visits : List Visit) (first last : Json) : Except BoundError (List Text) :=
  (visits.filterM fun v => isAskedFor first last v.node.pos.line).map
    (·.map (line visits.toArray))

end Listing

end ElementLint
