import ModelPlaybook.Script.Grammar.Expression

/-!
# Reading statements of scripts

A script is a list of statements, each on a line of its own or followed by a block.
-/

namespace ModelPlaybook.Script

namespace Parse

/-! ## Targets -/

mutual

/-- Whether something can be assigned to an expression. -/
def isTarget : Expr → Bool
  | .name _ _ => true
  | .attribute _ _ _ => true
  | .item _ _ => true
  | .tuple es => areTargets es
  | .list es => areTargets es
  | .starred e => isTarget e
  | _ => false
termination_by structural e => e

def areTargets : List Expr → Bool
  | [] => true
  | e :: es => isTarget e && areTargets es
termination_by structural es => es

end

def isStarred : Expr → Bool
  | .starred _ => true
  | _ => false

/-- Whether an expression can be the target of an assignment or of a loop. -/
def isWholeTarget (e : Expr) : Bool :=
  isTarget e && !isStarred e

/-- Whether an expression can be deleted. -/
def isDeletable : Expr → Bool
  | .name _ _ => true
  | .attribute _ _ _ => true
  | .item _ _ => true
  | _ => false

def isUpdatable : Expr → Bool :=
  isDeletable

/-- Refuses an expression that fails a test. -/
def ensure (test : Expr → Bool) (e : Expr) : Parse Expr := do
  if test e then pure e else fail

/-- Reads expressions, perhaps starred, with commas between them; more than one make a tuple. -/
def exprList (fuel : Nat) : Parse Expr := do
  let first ← starredOrExpr fuel
  if ← isMark [","] then pure (.tuple (first :: (← more fuel))) else pure first
where
  more : Nat → Parse (List Expr)
    | 0 => fail
    | n + 1 => do
      if ← acceptMark "," then
        if startsExpr (← peek) then
          let e ← starredOrExpr fuel
          pure (e :: (← more n))
        else pure []
      else pure []

/-! ## Statements -/

/-- The operators of assigning marks. -/
def updateOperators : List (String × BinaryOperator) :=
  [("+=", .add), ("-=", .sub), ("*=", .mul), ("/=", .div), ("//=", .floorDiv), ("%=", .mod),
    ("**=", .pow), ("@=", .matMul), ("<<=", .shiftLeft), (">>=", .shiftRight), ("&=", .bitAnd),
    ("|=", .bitOr), ("^=", .bitXor)]

/-- Reads the values behind a target: all but the last are targets too. -/
def assigned (fuel : Nat) : Nat → Parse (List Expr × Expr)
  | 0 => fail
  | n + 1 => do
    let e ← exprList fuel
    if ← acceptMark "=" then
      let (targets, value) ← assigned fuel n
      pure ((← ensure isWholeTarget e) :: targets, value)
    else pure ([], e)

/-- Reads an expression, an assignment or an update. -/
def exprStmt (fuel : Nat) : Parse Stmt := do
  let l ← line
  let e ← exprList fuel
  if ← acceptMark "=" then
    let (targets, value) ← assigned fuel fuel
    pure (.assign ((← ensure isWholeTarget e) :: targets) value)
  else
    match ← operator? updateOperators with
    | some op =>
      let target ← ensure isUpdatable e
      pure (.update l op target (← exprList fuel))
    | none => pure (.expr e)

def dottedName : Nat → Parse String
  | 0 => fail
  | n + 1 => do
    let id ← name
    if ← acceptMark "." then pure (id ++ "." ++ (← dottedName n)) else pure id

def boundName? : Parse (Option String) := do
  if ← acceptWord "as" then pure (some (← name)) else pure none

/-- Reads the names of an import. -/
def importedNames (one : Parse String) : Nat → Parse (List Imported)
  | 0 => fail
  | n + 1 => do
    let first : Imported := ⟨← one, ← boundName?⟩
    if ← acceptMark "," then
      if ← isMark [")"] then pure [first] else pure (first :: (← importedNames one n))
    else pure [first]

def skipDots : Nat → Parse Bool
  | 0 => pure false
  | n + 1 => do
    if (← acceptMark ".") || (← acceptMark "...") then
      discard (skipDots n)
      pure true
    else pure false

/-- Reads the rest of an import from a module. -/
def importFrom (fuel l : Nat) : Parse Stmt := do
  let isRelative ← skipDots fuel
  if !isRelative || (← peek) ≠ .keyword "import" then discard (dottedName fuel)
  expectWord "import"
  if ← acceptMark "*" then pure (.importNames l [⟨"*", none⟩])
  else if ← acceptMark "(" then
    let names ← importedNames name fuel
    expectMark ")"
    pure (.importNames l names)
  else pure (.importNames l (← importedNames name fuel))

def names : Nat → Parse (List String)
  | 0 => fail
  | n + 1 => do
    let id ← name
    if ← acceptMark "," then pure (id :: (← names n)) else pure [id]

/-- Whether a statement on one line ends here. -/
def atStmtEnd : Parse Bool := do
  match ← peek with
  | .newline => pure true
  | .mark ";" => pure true
  | _ => pure false

/-- Reads the expressions that a deletion names; brackets around them do not count. -/
def deleted (fuel : Nat) : Parse (List Expr) := do
  match ← exprList fuel with
  | .tuple es => es.mapM (ensure isDeletable)
  | .list es => es.mapM (ensure isDeletable)
  | e => pure [← ensure isDeletable e]

/-- Reads a statement that stands on one line. -/
def smallStmt (fuel : Nat) : Parse Stmt := do
  let l ← line
  match ← peek with
  | .keyword "pass" =>
    skip
    pure .pass
  | .keyword "break" =>
    skip
    pure (.breakLoop l)
  | .keyword "continue" =>
    skip
    pure (.continueLoop l)
  | .keyword "return" =>
    skip
    if ← atStmtEnd then pure (.giveBack l none) else pure (.giveBack l (some (← exprList fuel)))
  | .keyword "raise" =>
    skip
    if ← atStmtEnd then pure (.raise none none)
    else
      let error ← expr fuel
      let cause ← if ← acceptWord "from" then pure (some (← expr fuel)) else pure none
      pure (.raise (some error) cause)
  | .keyword "assert" =>
    skip
    let test ← expr fuel
    let message ← if ← acceptMark "," then pure (some (← expr fuel)) else pure none
    pure (.check test message)
  | .keyword "del" =>
    skip
    pure (.delete (← deleted fuel))
  | .keyword "global" =>
    skip
    pure (.globalNames (← names fuel))
  | .keyword "import" =>
    skip
    pure (.importNames l (← importedNames (dottedName fuel) fuel))
  | .keyword "from" =>
    skip
    importFrom fuel l
  | _ => exprStmt fuel

/-- Reads the statements of one line and its end. -/
def smallStmts (fuel : Nat) : Nat → Parse (List Stmt)
  | 0 => fail
  | n + 1 => do
    let s ← smallStmt fuel
    if ← acceptMark ";" then
      if ← accept .newline then pure [s] else pure (s :: (← smallStmts fuel n))
    else
      expect .newline
      pure [s]

/-- Reads the decorators before a definition. -/
def decorators (fuel : Nat) : Nat → Parse (List Expr)
  | 0 => fail
  | n + 1 => do
    if ← acceptMark "@" then
      let e ← expr fuel
      expect .newline
      pure (e :: (← decorators fuel n))
    else pure []

mutual

/-- Reads one statement, or the statements of one line. -/
def stmts : Nat → Parse (List Stmt)
  | 0 => fail
  | fuel + 1 => do
    match ← peek with
    | .keyword "if" =>
      skip
      pure [← branch fuel]
    | .keyword "while" =>
      skip
      let test ← expr fuel
      let body ← block fuel
      pure [.whileLoop test body (← otherwise fuel)]
    | .keyword "for" =>
      skip
      let target ← targets fuel >>= ensure isWholeTarget
      expectWord "in"
      let source ← exprList fuel
      let body ← block fuel
      pure [.forLoop target source body (← otherwise fuel)]
    | .keyword "try" =>
      skip
      let body ← block fuel
      let handlers ← handlers fuel
      let rest ← if handlers.isEmpty then pure [] else otherwise fuel
      let final ← if ← acceptWord "finally" then pure (some (← block fuel)) else pure none
      if handlers.isEmpty && final.isNone then fail
      pure [.attempt body handlers rest (final.getD [])]
    | .keyword "def" => pure [← definition fuel []]
    | .keyword "class" => pure [← definition fuel []]
    | .mark "@" =>
      let decorators ← decorators fuel fuel
      pure [← definition fuel decorators]
    | _ => smallStmts fuel fuel

/-- Reads what follows the word `if`. -/
def branch : Nat → Parse Stmt
  | 0 => fail
  | fuel + 1 => do
    let test ← expr fuel
    let body ← block fuel
    if ← acceptWord "elif" then pure (.branch test body [← branch fuel])
    else pure (.branch test body (← otherwise fuel))

/-- Reads a block behind the word `else`, if there is one. -/
def otherwise : Nat → Parse (List Stmt)
  | 0 => fail
  | fuel + 1 => do
    if ← acceptWord "else" then block fuel else pure []

def handlers : Nat → Parse (List Handler)
  | 0 => fail
  | fuel + 1 => do
    let l ← line
    if ← acceptWord "except" then
      let kind ← if ← isMark [":"] then pure none else pure (some (← expr fuel))
      let id ← if kind.isSome then boundName? else pure none
      let body ← block fuel
      pure (.mk l kind id body :: (← handlers fuel))
    else pure []

/-- Reads the definition of a function or of a class. -/
def definition : Nat → List Expr → Parse Stmt
  | 0, _ => fail
  | fuel + 1, decorators => do
    let l ← line
    if ← acceptWord "def" then
      let id ← name
      expectMark "("
      let parameters ← parameters fuel ")" true
      expectMark ")"
      if ← acceptMark "->" then discard (expr fuel)
      pure (.define l id parameters (← block fuel) decorators)
    else
      expectWord "class"
      let id ← name
      let (bases, keywords) ←
        if ← acceptMark "(" then arguments fuel true [] else pure ([], [])
      pure (.defineClass l id bases keywords (← block fuel) decorators)

/-- Reads a colon and the statements behind it, on the same line or as an indented block. -/
def block : Nat → Parse (List Stmt)
  | 0 => fail
  | fuel + 1 => do
    expectMark ":"
    if ← accept .newline then
      expect .indent
      let first ← stmts fuel
      pure (first ++ (← blockRest fuel))
    else smallStmts fuel fuel

def blockRest : Nat → Parse (List Stmt)
  | 0 => fail
  | fuel + 1 => do
    if ← accept .dedent then pure []
    else
      let s ← stmts fuel
      pure (s ++ (← blockRest fuel))

end

/-- Reads statements up to the end. -/
def script (fuel : Nat) : Nat → Parse (List Stmt)
  | 0 => fail
  | n + 1 => do
    if ← accept .finish then pure []
    else
      let s ← stmts fuel
      pure (s ++ (← script fuel n))

end Parse

/-- The statements of a script. -/
def parse (text : String) : Except Malformed (List Stmt) := do
  let ts ← tokens text
  let fuel := 40 * ts.length + 100
  let (script, _) ← (Parse.script fuel (ts.length + 1)).run ts
  pure script

end ModelPlaybook.Script
