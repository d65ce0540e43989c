import ModelPlaybook.Script.Tree

/-!
# What a script may not say

Before a script runs it is searched for names and forms that could reach what is hidden from it.
All complaints are collected, in the order in which the parts of the script are visited.
-/

namespace ModelPlaybook.Script

/-- What is wrong with a part of a script. -/
inductive Offence where
  | hiddenVariable (name : String)
  | roleVariable (name : String)
  | reserved (name : String)
  | hiddenAttribute (name : String)
  | roleAttribute (name : String)
  | restrictedAttribute (name : String)
  | execCall
  | evalCall
  | updatedAttribute
  | updatedItem
  | wholeImport
  | metaclass
  | form (kind : String)
deriving DecidableEq, Repr

def Offence.text : Offence → String
  | hiddenVariable name =>
    "\"" ++ name ++ "\" is an invalid variable name because it starts with \"_\""
  | roleVariable name =>
    "\"" ++ name ++ "\" is an invalid variable name because it ends with \"__roles__\"."
  | reserved name => "\"" ++ name ++ "\" is a reserved name."
  | hiddenAttribute name =>
    "\"" ++ name ++ "\" is an invalid attribute name because it starts with \"_\"."
  | roleAttribute name =>
    "\"" ++ name ++ "\" is an invalid attribute name because it ends with \"__roles__\"."
  | restrictedAttribute name =>
    "\"" ++ name ++ "\" is a restricted name, that is forbidden to access in RestrictedPython."
  | execCall => "Exec calls are not allowed."
  | evalCall => "Eval calls are not allowed."
  | updatedAttribute => "Augmented assignment of attributes is not allowed."
  | updatedItem => "Augmented assignment of object items and slices is not allowed."
  | wholeImport => "\"*\" imports are not allowed."
  | metaclass => "The keyword argument \"metaclass\" is not allowed."
  | form kind => kind ++ " statements are not allowed."

structure Complaint where
  line : Option Nat
  offence : Offence
deriving DecidableEq, Repr

/-- A complaint as one message. -/
def Complaint.text (c : Complaint) : String :=
  "Line " ++ (c.line.elim "None" toString) ++ ": " ++ c.offence.text

/-- The names that have a meaning of their own. -/
def reservedNames : List String := ["print", "printed", "builtins", "breakpoint"]

/-- The methods that a class may define although their names are hidden. -/
def openMethods : List String :=
  ["__init__", "__contains__", "__lt__", "__le__", "__eq__", "__ne__", "__gt__", "__ge__"]

/-- The attributes that would show how a script runs. -/
def restrictedAttributes : List String :=
  ["tb_frame", "tb_next", "f_back", "f_builtins", "f_code", "f_globals", "f_locals", "f_trace",
    "co_code", "gi_frame", "gi_code", "gi_yieldfrom", "cr_await", "cr_frame", "cr_code",
    "cr_origin"]

def isHidden (name : String) : Bool :=
  name.startsWith "_" && name ≠ "_"

/-- What is wrong with a name that a script uses. -/
def nameOffence? (name : String) : Option Offence :=
  if isHidden name then some (.hiddenVariable name)
  else if name.endsWith "__roles__" then some (.roleVariable name)
  else if reservedNames.contains name then some (.reserved name)
  else none

def checkName (line : Nat) (name : String) : List Complaint :=
  (nameOffence? name).toList.map fun o => ⟨some line, o⟩

/-- What is wrong with the name of a function, which inside of a block may be an open method. -/
def checkFunctionName (line : Nat) (atTop : Bool) (name : String) : List Complaint :=
  if !atTop && openMethods.contains name then [] else checkName line name

/-- What is wrong with a name that is read; printing is not done by the name. -/
def checkRead (line : Nat) (name : String) : List Complaint :=
  if name = "print" || name = "printed" then [] else checkName line name

def checkAttribute (line : Nat) (name : String) : List Complaint :=
  let found := (if isHidden name then [Offence.hiddenAttribute name] else []) ++
    (if name.endsWith "__roles__" then [.roleAttribute name] else []) ++
    (if restrictedAttributes.contains name then [.restrictedAttribute name] else [])
  found.map fun o => ⟨some line, o⟩

/-- What is wrong with what a call calls. -/
def checkCalled (line : Nat) (function : Expr) : List Complaint :=
  match function with
  | .name _ "exec" => [⟨some line, .execCall⟩]
  | .name _ "eval" => [⟨some line, .evalCall⟩]
  | _ => []

/-- What is wrong with the names of parameters. -/
def checkParameterNames (line : Nat) (p : Parameters) : List Complaint :=
  (p.positional ++ p.rest.toList ++ p.namedRest.toList ++ p.named.map (·.name)).flatMap
    (checkName line)

def checkImported (line : Nat) (i : Imported) : List Complaint :=
  (if i.name.contains '*' then [⟨some line, .wholeImport⟩] else []) ++ checkName line i.name ++
    i.boundAs.toList.flatMap (checkName line)

/-- What is wrong with the names of the keywords of a class. -/
def checkClassKeywords (line : Nat) (keywords : List Keyword) : List Complaint :=
  if keywords.any fun | .mk name _ => name = some "metaclass" then [⟨some line, .metaclass⟩]
  else []

mutual

/-- The complaints about an expression.  `stored` says that it is assigned to or deleted. -/
def checkExpr (stored : Bool) : Expr → List Complaint
  | .constant _ => []
  | .bytes _ => []
  | .ellipsis => []
  | .name line id => if stored then checkName line id else checkRead line id
  | .attribute line object id => checkAttribute line id ++ checkExpr false object
  | .item object index => checkExpr false object ++ checkExpr false index
  | .slice start stop step => checkOptional start ++ checkOptional stop ++ checkOptional step
  | .call line function arguments keywords =>
    checkCalled line function ++ checkExpr false function ++ checkExprs false arguments ++
      checkKeywords keywords
  | .unary _ operand => checkExpr false operand
  | .binary op left right =>
    checkExpr false left ++ (if op = .matMul then [⟨none, .form "MatMult"⟩] else []) ++
      checkExpr false right
  | .compare first rest => checkExpr false first ++ checkLinks rest
  | .all operands => checkExprs false operands
  | .any operands => checkExprs false operands
  | .choice test whenTrue whenFalse =>
    checkExpr false test ++ checkExpr false whenTrue ++ checkExpr false whenFalse
  | .function line parameters body =>
    checkParameterNames line parameters ++ checkParameters parameters ++ checkExpr false body
  | .list items => checkExprs stored items
  | .tuple items => checkExprs stored items
  | .set items => checkExprs false items
  | .starred operand => checkExpr stored operand
  | .dict entries => checkKeys entries ++ checkValues entries
  | .comprehension _ element clauses => checkExpr false element ++ checkClauses clauses
  | .dictComprehension key value clauses =>
    checkExpr false key ++ checkExpr false value ++ checkClauses clauses
termination_by structural e => e

def checkExprs (stored : Bool) : List Expr → List Complaint
  | [] => []
  | e :: es => checkExpr stored e ++ checkExprs stored es
termination_by structural es => es

def checkOptional : Option Expr → List Complaint
  | none => []
  | some e => checkExpr false e
termination_by structural e => e

def checkKeywords : List Keyword → List Complaint
  | [] => []
  | .mk _ e :: rest => checkExpr false e ++ checkKeywords rest
termination_by structural ks => ks

def checkLinks : List Link → List Complaint
  | [] => []
  | .mk _ e :: rest => checkExpr false e ++ checkLinks rest
termination_by structural ls => ls

def checkKeys : List Entry → List Complaint
  | [] => []
  | .mk key _ :: rest => checkOptional key ++ checkKeys rest
termination_by structural es => es

def checkValues : List Entry → List Complaint
  | [] => []
  | .mk _ value :: rest => checkExpr false value ++ checkValues rest
termination_by structural es => es

def checkClauses : List Clause → List Complaint
  | [] => []
  | .mk target source conditions :: rest =>
    checkExpr true target ++ checkExpr false source ++ checkExprs false conditions ++
      checkClauses rest
termination_by structural cs => cs

/-- The complaints about the defaults of parameters; those that belong to names come first. -/
def checkParameters : Parameters → List Complaint
  | .mk _ defaults _ named _ => checkNamed named ++ checkExprs false defaults
termination_by structural p => p

def checkNamed : List Named → List Complaint
  | [] => []
  | .mk _ default :: rest => checkOptional default ++ checkNamed rest
termination_by structural ns => ns

end

/-- What is wrong with updating a target in place. -/
def checkUpdated (line : Nat) (target : Expr) : List Complaint :=
  match target with
  | .attribute _ _ _ => [⟨some line, .updatedAttribute⟩]
  | .item _ _ => [⟨some line, .updatedItem⟩]
  | _ => []

mutual

/-- The complaints about a statement.  `atTop` says that it stands in no block. -/
def checkStmt (atTop : Bool) : Stmt → List Complaint
  | .expr e => checkExpr false e
  | .assign targets value => checkExprs true targets ++ checkExpr false value
  | .update line op target value =>
    checkExpr true target ++ (if op = .matMul then [⟨none, .form "MatMult"⟩] else []) ++
      checkExpr false value ++ checkUpdated line target
  | .delete targets => checkExprs true targets
  | .pass => []
  | .breakLoop _ => []
  | .continueLoop _ => []
  | .giveBack _ value => checkOptional value
  | .raise error cause => checkOptional error ++ checkOptional cause
  | .check test message => checkExpr false test ++ checkOptional message
  | .branch test body otherwise =>
    checkExpr false test ++ checkStmts false body ++ checkStmts false otherwise
  | .whileLoop test body otherwise =>
    checkExpr false test ++ checkStmts false body ++ checkStmts false otherwise
  | .forLoop target source body otherwise =>
    checkExpr true target ++ checkExpr false source ++ checkStmts false body ++
      checkStmts false otherwise
  | .attempt body handlers otherwise final =>
    checkStmts false body ++ checkHandlers handlers ++ checkStmts false otherwise ++
      checkStmts false final
  | .define line name parameters body decorators =>
    checkFunctionName line atTop name ++ checkParameterNames line parameters ++
      checkParameters parameters ++ checkStmts false body ++ checkExprs false decorators
  | .defineClass line name bases keywords body decorators =>
    checkName line name ++ checkExprs false bases ++ checkKeywords keywords ++
      checkStmts false body ++ checkExprs false decorators ++ checkClassKeywords line keywords
  | .importNames line names => names.flatMap (checkImported line)
  | .globalNames _ => []
termination_by structural s => s

def checkStmts (atTop : Bool) : List Stmt → List Complaint
  | [] => []
  | s :: rest => checkStmt atTop s ++ checkStmts atTop rest
termination_by structural ss => ss

def checkHandlers : List Handler → List Complaint
  | [] => []
  | .mk line kind name body :: rest =>
    checkOptional kind ++ checkStmts false body ++ name.toList.flatMap (checkName line) ++
      checkHandlers rest
termination_by structural hs => hs

end

/-- The complaints about a script. -/
def complaints (script : List Stmt) : List Complaint :=
  checkStmts true script

end ModelPlaybook.Script
