import ElementLint.Rule.Basic
import ElementLint.Rule.ElementName

/-!
# The rule on element names

The rule reports the name in `customElements.define(name, …)` when it is no custom element name, or
when it is a bad choice and the option `loose` is not set.
-/

namespace ElementLint

namespace InvalidElementName

def isIdentifier (name : Text) : Option Node → Bool
  | some (.identifier _ other) => other == name
  | _ => false

/-- Whether a node is `customElements` or `window.customElements`. -/
def isRegistry : Option Node → Bool
  | some (.identifier _ name) => name == Text.ofString "customElements"
  | some (.member _ object property computed _) =>
    !computed && isIdentifier "window" object && isIdentifier "customElements" property
  | _ => false

def isDefine : Option Node → Bool
  | some (.member _ object property computed _) =>
    !computed && isRegistry object && isIdentifier "define" property
  | _ => false

def isDefineCall : Node → Bool
  | .call _ callee _ _ => isDefine callee
  | _ => false

/-- The name that a node registers, if it is a call that registers one written as a string, and where
the string stands. -/
def definedName? : Node → Option (Text × Position)
  | .call _ callee (.literal pos (.text name) _ :: _) _ =>
    if isDefine callee then some (name, pos) else none
  | _ => none

/-- A test of names, which may fail in words of its own. -/
abbrev NameTest := Text → Except Text Bool

def messageId : Text := "invalidElementName"

/-- Whether the options ask for valid names only, and not for good ones. -/
def isLoose (options : List Json) : Bool :=
  match options.head? with
  | some option => ((option.get? "loose").getD (.bool false)).truthy
  | none => false

def check (isValid : NameTest) (options : List Json) : Check := fun n =>
  match definedName? n with
  | none => .ok []
  | some (name, pos) =>
    match isValid name with
    | .error words => .error (.nameTest words)
    | .ok valid =>
      let discouraged := !isLoose options && !ElementName.isBestPractice name
      .ok (if !valid || discouraged then [⟨messageId, pos⟩] else [])

/-- The test that the rule makes unless it is given another one. -/
def validName : NameTest := fun name => .ok (ElementName.isValid name)

def ruleWith (isValid : NameTest) : Rule where
  id := .text "no-invalid-element-name"
  description := "Disallows invalid custom element names"
  url := some "docs/rules/no-invalid-element-name.md"
  messages := [(messageId, .text (
    "Element name is invalid and should follow the HTML standard's recommendations" ++
    "(https://html.spec.whatwg.org/multipage/custom-elements.html#prod-potentialcustomelementname)."))]
  schema := .list [.object [
    ("type", .text "object"),
    ("properties", .object [("loose", .object [("type", .text "boolean")])]),
    ("additionalProperties", .bool false)]]
  check := fun options => .ok (check isValid options)

def rule : Rule := ruleWith validName

end InvalidElementName

end ElementLint
