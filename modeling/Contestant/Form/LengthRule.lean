/-!
Length rules for the texts of a form, and the report about broken ones.

Lengths count characters.  A text that is absent breaks no rule.
-/

namespace Contestant

/-- The lengths that a field admits, and what its owner is told otherwise. -/
structure LengthRule where
  field : String
  least : Option Nat
  most : Nat
  message : Option String
  deriving DecidableEq

/-- A broken rule with the text that breaks it. -/
structure Violation where
  rule : LengthRule
  value : String
  deriving DecidableEq

namespace LengthRule

def admits (rule : LengthRule) (value : String) : Bool :=
  rule.least.getD 0 ≤ value.length && value.length ≤ rule.most

def check (rule : LengthRule) : Option String → List Violation
  | none => []
  | some value => if rule.admits value then [] else [⟨rule, value⟩]

end LengthRule

namespace Violation

/-- The line about one field.  A rule without a message of its own is named by its kind. -/
def line (v : Violation) : String :=
  v.rule.field ++ ": " ++ v.rule.message.getD "Validation error: length"

/-- The report about all fields, one line each, in the order of their names. -/
def report (violations : List Violation) : String :=
  let sorted := violations.mergeSort fun a b => decide (a.rule.field ≤ b.rule.field)
  "\n".intercalate (sorted.map line)

end Violation
end Contestant
