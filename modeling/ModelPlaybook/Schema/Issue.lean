import ModelPlaybook.Value.Shown

/-!
# Issues found in a document

A document is checked field by field.  Each field that breaks a rule gives an issue: where it is,
as the path of keys and indexes from the root, and what is wrong with it.  A check never stops at
the first issue.
-/

namespace ModelPlaybook.Schema

/-- What is wrong with a part of a document. -/
inductive Problem where
  | missing
  | notText
  | undecodable
  | notBool
  | unclearBool
  | notWhole
  | fractional
  | notFinite
  | unreadableWhole
  | tooLongWhole
  | notNumber
  | unreadableNumber
  | notList
  | notMapping
  | notInstance (kind : String)
  | notAmong (choices : String)
  | extra
  | keyNotText
  | tooFew (least found : Nat)
  | tooSmall (least : Int)
  | rule (text : String)
deriving DecidableEq, Repr

def Problem.message : Problem → String
  | missing => "Field required"
  | notText => "Input should be a valid string"
  | undecodable => "Input should be a valid string, unable to parse raw data as a unicode string"
  | notBool => "Input should be a valid boolean"
  | unclearBool => "Input should be a valid boolean, unable to interpret input"
  | notWhole => "Input should be a valid integer"
  | fractional => "Input should be a valid integer, got a number with a fractional part"
  | notFinite => "Input should be a finite number"
  | unreadableWhole => "Input should be a valid integer, unable to parse string as an integer"
  | tooLongWhole => "Unable to parse input string as an integer, exceeded maximum size"
  | notNumber => "Input should be a valid number"
  | unreadableNumber => "Input should be a valid number, unable to parse string as a number"
  | notList => "Input should be a valid list"
  | notMapping => "Input should be a valid dictionary"
  | notInstance kind => "Input should be a valid dictionary or instance of " ++ kind
  | notAmong choices => "Input should be " ++ choices
  | extra => "Extra inputs are not permitted"
  | keyNotText => "Keys should be strings"
  | tooFew least found =>
    "List should have at least " ++ toString least ++ (if least = 1 then " item" else " items") ++
      " after validation, not " ++ toString found
  | tooSmall least => "Input should be greater than or equal to " ++ toString least
  | rule text => "Value error, " ++ text

structure Issue where
  path : List String
  problem : Problem
deriving DecidableEq, Repr

/-- An issue as one line of text. -/
def Issue.line (i : Issue) : String :=
  ".".intercalate i.path ++ ": " ++ i.problem.message

/-- The outcome of a check: what was read, or all issues that were found. -/
inductive Checked (α : Type) where
  | valid (a : α)
  | invalid (issues : List Issue)
deriving Repr

namespace Checked

variable {α β : Type}

def map (f : α → β) : Checked α → Checked β
  | valid a => valid (f a)
  | invalid issues => invalid issues

/-- Both of two checks; the issues of the first come first. -/
def both : Checked α → Checked β → Checked (α × β)
  | valid a, valid b => valid (a, b)
  | valid _, invalid issues => invalid issues
  | invalid issues, valid _ => invalid issues
  | invalid issues, invalid more => invalid (issues ++ more)

/-- A check of what another check has read. -/
def andThen (c : Checked α) (f : α → Checked β) : Checked β :=
  match c with
  | valid a => f a
  | invalid issues => invalid issues

/-- The issues of a check, placed under a key or an index. -/
def under (part : String) : Checked α → Checked α
  | valid a => valid a
  | invalid issues => invalid (issues.map fun i => { i with path := part :: i.path })

def issues : Checked α → List Issue
  | valid _ => []
  | invalid issues => issues

def fail (p : Problem) : Checked α :=
  invalid [⟨[], p⟩]

instance : Applicative Checked where
  pure := valid
  map := map
  seq f a := (both f (a ())).map fun (f, a) => f a

/-- All checks of a list, each under its index. -/
def all (check : α → Checked β) : Nat → List α → Checked (List β)
  | _, [] => valid []
  | n, x :: xs =>
    (both ((check x).under (toString n)) (all check (n + 1) xs)).map fun (b, bs) => b :: bs

def toExcept : Checked α → Except (List Issue) α
  | valid a => .ok a
  | invalid issues => .error issues

end Checked

end ModelPlaybook.Schema
