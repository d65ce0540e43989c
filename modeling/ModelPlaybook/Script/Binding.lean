import ModelPlaybook.Script.Tree

/-!
# The names that a block binds

A name that a function assigns to anywhere is its own; every other name belongs to the surroundings.
What inner functions, classes and comprehensions assign to does not count.
-/

namespace ModelPlaybook.Script

mutual

/-- The names that an assignment to a target binds. -/
def Expr.bound : Expr → List String
  | .name _ id => [id]
  | .tuple es => boundByAll es
  | .list es => boundByAll es
  | .starred e => e.bound
  | _ => []
termination_by structural e => e

def boundByAll : List Expr → List String
  | [] => []
  | e :: es => e.bound ++ boundByAll es
termination_by structural es => es

end

/-- The name that an import binds: its alias, or the first part of a dotted name. -/
def Imported.bound (i : Imported) : String :=
  i.boundAs.getD (String.ofList (i.name.toList.takeWhile (· ≠ '.')))

mutual

/-- The names that a statement binds. -/
def Stmt.bound : Stmt → List String
  | .assign targets _ => boundByAll targets
  | .update _ _ target _ => target.bound
  | .delete targets => boundByAll targets
  | .branch _ body otherwise => boundBy body ++ boundBy otherwise
  | .whileLoop _ body otherwise => boundBy body ++ boundBy otherwise
  | .forLoop target _ body otherwise => target.bound ++ boundBy body ++ boundBy otherwise
  | .attempt body handlers otherwise final =>
    boundBy body ++ boundByHandlers handlers ++ boundBy otherwise ++ boundBy final
  | .define _ name _ _ _ => [name]
  | .defineClass _ name _ _ _ _ => [name]
  | .importNames _ names => names.map (·.bound)
  | _ => []
termination_by structural s => s

def boundBy : List Stmt → List String
  | [] => []
  | s :: rest => s.bound ++ boundBy rest
termination_by structural ss => ss

def boundByHandlers : List Handler → List String
  | [] => []
  | .mk _ _ name body :: rest => name.toList ++ boundBy body ++ boundByHandlers rest
termination_by structural hs => hs

end

mutual

/-- The names that a statement hands over to the whole script. -/
def Stmt.handedOver : Stmt → List String
  | .globalNames names => names
  | .branch _ body otherwise => handedOverBy body ++ handedOverBy otherwise
  | .whileLoop _ body otherwise => handedOverBy body ++ handedOverBy otherwise
  | .forLoop _ _ body otherwise => handedOverBy body ++ handedOverBy otherwise
  | .attempt body handlers otherwise final =>
    handedOverBy body ++ handedOverByHandlers handlers ++ handedOverBy otherwise ++
      handedOverBy final
  | _ => []
termination_by structural s => s

def handedOverBy : List Stmt → List String
  | [] => []
  | s :: rest => s.handedOver ++ handedOverBy rest
termination_by structural ss => ss

def handedOverByHandlers : List Handler → List String
  | [] => []
  | .mk _ _ _ body :: rest => handedOverBy body ++ handedOverByHandlers rest
termination_by structural hs => hs

end

/-- The names of a block's own, in which it also finds its parameters. -/
def ownNames (parameters : List String) (body : List Stmt) : List String :=
  let given := handedOverBy body
  parameters ++ (boundBy body).filter fun name => !given.contains name

end ModelPlaybook.Script
