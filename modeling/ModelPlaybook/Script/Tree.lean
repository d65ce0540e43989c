import ModelPlaybook.Value.Operation

/-!
# Scripts as trees

Model logic is a script: statements made of expressions.  Parts that a message may point at carry
the number of their line.
-/

namespace ModelPlaybook.Script

inductive UnaryOperator where
  | negative
  | positive
  | invert
  | not
deriving DecidableEq, Repr

/-- The tests of a comparison. -/
inductive Test where
  | comparing (c : Comparator)
  | within
  | notWithin
  | same
  | notSame
deriving DecidableEq, Repr

/-- The collections that a comprehension can fill. -/
inductive Filled where
  | list
  | set
  | generator
deriving DecidableEq, Repr

mutual

inductive Expr where
  | constant (s : Scalar)
  | bytes (content : List UInt8)
  | ellipsis
  | name (line : Nat) (id : String)
  | attribute (line : Nat) (object : Expr) (id : String)
  | item (object index : Expr)
  | slice (start stop step : Option Expr)
  /-- A keyword argument without a name hands on all entries of a mapping. -/
  | call (line : Nat) (function : Expr) (arguments : List Expr) (keywords : List Keyword)
  | unary (op : UnaryOperator) (operand : Expr)
  | binary (op : BinaryOperator) (left right : Expr)
  | compare (first : Expr) (rest : List Link)
  | all (operands : List Expr)
  | any (operands : List Expr)
  | choice (test whenTrue whenFalse : Expr)
  | function (line : Nat) (parameters : Parameters) (body : Expr)
  | list (items : List Expr)
  | tuple (items : List Expr)
  | set (items : List Expr)
  | starred (operand : Expr)
  | dict (entries : List Entry)
  | comprehension (filled : Filled) (element : Expr) (clauses : List Clause)
  | dictComprehension (key value : Expr) (clauses : List Clause)

/-- An argument with a name, or all entries of a mapping. -/
inductive Keyword where
  | mk (name : Option String) (value : Expr)

/-- One step of a comparison. -/
inductive Link where
  | mk (test : Test) (right : Expr)

/-- An entry of a displayed mapping; without a key, all entries of another one. -/
inductive Entry where
  | mk (key : Option Expr) (value : Expr)

/-- One `for` of a comprehension and the conditions behind it. -/
inductive Clause where
  | mk (target source : Expr) (conditions : List Expr)

/-- The parameters of a function.  The defaults belong to the last positional parameters. -/
inductive Parameters where
  | mk (positional : List String) (defaults : List Expr) (rest : Option String)
      (named : List Named) (namedRest : Option String)

/-- A parameter that can only be given by name. -/
inductive Named where
  | mk (name : String) (default : Option Expr)

end

mutual

/-- Whether an expression is written without names and calls. -/
def Expr.isConstant : Expr → Bool
  | .constant _ => true
  | .bytes _ => true
  | .ellipsis => true
  | .unary _ operand => operand.isConstant
  | .binary _ left right => left.isConstant && right.isConstant
  | .tuple items => areConstant items
  | _ => false
termination_by structural e => e

def areConstant : List Expr → Bool
  | [] => true
  | e :: rest => e.isConstant && areConstant rest
termination_by structural es => es

end

namespace Parameters

def positional : Parameters → List String
  | mk names _ _ _ _ => names

def defaults : Parameters → List Expr
  | mk _ defaults _ _ _ => defaults

def rest : Parameters → Option String
  | mk _ _ rest _ _ => rest

def named : Parameters → List Named
  | mk _ _ _ named _ => named

def namedRest : Parameters → Option String
  | mk _ _ _ _ rest => rest

end Parameters

def Named.name : Named → String
  | mk name _ => name

/-- The names that a function binds to its arguments. -/
def Parameters.names (p : Parameters) : List String :=
  p.positional ++ p.rest.toList ++ p.named.map (·.name) ++ p.namedRest.toList

/-- A name in an import, and the name that it is bound to if that is another one. -/
structure Imported where
  name : String
  boundAs : Option String
deriving Repr

mutual

inductive Stmt where
  | expr (e : Expr)
  | assign (targets : List Expr) (value : Expr)
  | update (line : Nat) (op : BinaryOperator) (target value : Expr)
  | delete (targets : List Expr)
  | pass
  | breakLoop (line : Nat)
  | continueLoop (line : Nat)
  | giveBack (line : Nat) (value : Option Expr)
  | raise (error cause : Option Expr)
  | check (test : Expr) (message : Option Expr)
  | branch (test : Expr) (body otherwise : List Stmt)
  | whileLoop (test : Expr) (body otherwise : List Stmt)
  | forLoop (target source : Expr) (body otherwise : List Stmt)
  | attempt (body : List Stmt) (handlers : List Handler) (otherwise final : List Stmt)
  | define (line : Nat) (name : String) (parameters : Parameters) (body : List Stmt)
      (decorators : List Expr)
  | defineClass (line : Nat) (name : String) (bases : List Expr) (keywords : List Keyword)
      (body : List Stmt) (decorators : List Expr)
  | importNames (line : Nat) (names : List Imported)
  | globalNames (names : List String)

/-- What is done about errors of some kinds; without a kind, about all of them. -/
inductive Handler where
  | mk (line : Nat) (kind : Option Expr) (name : Option String) (body : List Stmt)

end

end ModelPlaybook.Script
