import ModelPlaybook.Script.Scan
import ModelPlaybook.Script.Tree

/-!
# Reading expressions of scripts

Each function reads one construct and leaves the tokens behind it.  The fuel bounds how deep
constructs nest.
-/

namespace ModelPlaybook.Script

abbrev Parse := StateT (List Token) (Except Malformed)

namespace Parse

def peek : Parse Lexeme := do
  match ← get with
  | t :: _ => pure t.lexeme
  | [] => pure .finish

def line : Parse Nat := do
  match ← get with
  | t :: _ => pure t.line
  | [] => pure 0

def fail {α : Type} : Parse α := do
  throw ⟨← line⟩

def skip : Parse Unit :=
  modify List.tail

/-- Moves over a token if it is the next one. -/
def accept (l : Lexeme) : Parse Bool := do
  if (← peek) = l then
    skip
    pure true
  else pure false

def expect (l : Lexeme) : Parse Unit := do
  if !(← accept l) then fail

def acceptMark (m : String) : Parse Bool :=
  accept (.mark m)

def acceptWord (w : String) : Parse Bool :=
  accept (.keyword w)

def expectMark (m : String) : Parse Unit :=
  expect (.mark m)

def expectWord (w : String) : Parse Unit :=
  expect (.keyword w)

def isMark (ms : List String) : Parse Bool := do
  match ← peek with
  | .mark m => pure (ms.contains m)
  | _ => pure false

def name : Parse String := do
  match ← peek with
  | .name id =>
    skip
    pure id
  | _ => fail

/-- Whether an expression, perhaps a starred one, can start with a token. -/
def startsExpr (l : Lexeme) : Bool :=
  match l with
  | .name _ => true
  | .number _ => true
  | .text _ => true
  | .bytes _ => true
  | .keyword w => ["None", "True", "False", "not", "lambda"].contains w
  | .mark m => ["(", "[", "\x7b", "-", "+", "~", "...", "*"].contains m
  | _ => false

/-! ## Expressions -/

/-- The two-sided operators by how tightly they bind, the loosest first. -/
def operatorLevels : List (List (String × BinaryOperator)) := [
  [("|", .bitOr)], [("^", .bitXor)], [("&", .bitAnd)],
  [("<<", .shiftLeft), (">>", .shiftRight)],
  [("+", .add), ("-", .sub)],
  [("*", .mul), ("/", .div), ("//", .floorDiv), ("%", .mod), ("@", .matMul)]]

def operator? (table : List (String × BinaryOperator)) : Parse (Option BinaryOperator) := do
  match ← peek with
  | .mark m =>
    match table.lookup m with
    | some op =>
      skip
      pure (some op)
    | none => pure none
  | _ => pure none

/-- Reads the test of a comparison, if one comes next. -/
def test? : Parse (Option Test) := do
  match ← peek with
  | .mark m =>
    match Comparator.ofSymbol? m with
    | some c =>
      skip
      pure (some (.comparing c))
    | none => pure none
  | .keyword "in" =>
    skip
    pure (some .within)
  | .keyword "not" =>
    skip
    expectWord "in"
    pure (some .notWithin)
  | .keyword "is" =>
    skip
    if ← acceptWord "not" then pure (some .notSame) else pure (some .same)
  | _ => pure none

/-- Literals of text that stand side by side make one. -/
def moreText : Nat → String → Parse String
  | 0, s => pure s
  | fuel + 1, s => do
    match ← peek with
    | .text t =>
      skip
      moreText fuel (s ++ t)
    | .bytes _ => fail
    | _ => pure s

def moreBytes : Nat → List UInt8 → Parse (List UInt8)
  | 0, content => pure content
  | fuel + 1, content => do
    match ← peek with
    | .bytes more =>
      skip
      moreBytes fuel (content ++ more)
    | .text _ => fail
    | _ => pure content

/-- The defaults have to stand at the end. -/
def splitDefaults (ps : List (String × Option Expr)) : Option (List String × List Expr) :=
  let plain := ps.takeWhile fun p => p.2.isNone
  let rest := ps.drop plain.length
  if rest.all fun p => p.2.isSome then some (ps.map (·.1), rest.filterMap (·.2)) else none

mutual

/-- Reads an expression that is no tuple. -/
def expr : Nat → Parse Expr
  | 0 => fail
  | fuel + 1 => do
    let l ← line
    if ← acceptWord "lambda" then
      let parameters ← parameters fuel ":" false
      expectMark ":"
      pure (.function l parameters (← expr fuel))
    else
      let e ← anyOf fuel
      if ← acceptWord "if" then
        let test ← anyOf fuel
        expectWord "else"
        pure (.choice test e (← expr fuel))
      else pure e

def anyOf : Nat → Parse Expr
  | 0 => fail
  | fuel + 1 => do
    let first ← allOf fuel
    match ← operands fuel "or" with
    | [] => pure first
    | rest => pure (.any (first :: rest))

def allOf : Nat → Parse Expr
  | 0 => fail
  | fuel + 1 => do
    let first ← notOf fuel
    match ← operands fuel "and" with
    | [] => pure first
    | rest => pure (.all (first :: rest))

/-- Reads the operands behind the words `or` or `and`. -/
def operands : Nat → String → Parse (List Expr)
  | 0, _ => fail
  | fuel + 1, word => do
    if ← acceptWord word then
      let e ← if word = "or" then allOf fuel else notOf fuel
      pure (e :: (← operands fuel word))
    else pure []

def notOf : Nat → Parse Expr
  | 0 => fail
  | fuel + 1 => do
    if ← acceptWord "not" then pure (.unary .not (← notOf fuel)) else comparison fuel

def comparison : Nat → Parse Expr
  | 0 => fail
  | fuel + 1 => do
    let first ← level fuel operatorLevels
    match ← links fuel with
    | [] => pure first
    | rest => pure (.compare first rest)

def links : Nat → Parse (List Link)
  | 0 => fail
  | fuel + 1 => do
    match ← test? with
    | some test =>
      let right ← level fuel operatorLevels
      pure (.mk test right :: (← links fuel))
    | none => pure []

/-- Reads operands joined by operators of some levels. -/
def level : Nat → List (List (String × BinaryOperator)) → Parse Expr
  | 0, _ => fail
  | fuel + 1, [] => factor fuel
  | fuel + 1, table :: tighter => do
    let first ← level fuel tighter
    chain fuel table tighter first

def chain : Nat → List (String × BinaryOperator) → List (List (String × BinaryOperator)) → Expr →
    Parse Expr
  | 0, _, _, _ => fail
  | fuel + 1, table, tighter, left => do
    match ← operator? table with
    | some op =>
      let right ← level fuel tighter
      chain fuel table tighter (.binary op left right)
    | none => pure left

def factor : Nat → Parse Expr
  | 0 => fail
  | fuel + 1 => do
    if ← acceptMark "-" then pure (.unary .negative (← factor fuel))
    else if ← acceptMark "+" then pure (.unary .positive (← factor fuel))
    else if ← acceptMark "~" then pure (.unary .invert (← factor fuel))
    else
      let l ← line
      let base ← atom fuel
      let base ← trailers fuel l base
      if ← acceptMark "**" then pure (.binary .pow base (← factor fuel)) else pure base

/-- Reads attributes, calls and items behind an expression. -/
def trailers : Nat → Nat → Expr → Parse Expr
  | 0, _, _ => fail
  | fuel + 1, l, e => do
    if ← acceptMark "." then
      let id ← name
      trailers fuel l (.attribute l e id)
    else if ← acceptMark "(" then
      let (arguments, keywords) ← arguments fuel true []
      trailers fuel l (.call l e arguments keywords)
    else if ← acceptMark "[" then
      let index ← subscript fuel
      expectMark "]"
      trailers fuel l (.item e index)
    else pure e

/-- Reads the arguments of a call and its closing bracket. -/
def arguments : Nat → Bool → List Keyword → Parse (List Expr × List Keyword)
  | 0, _, _ => fail
  | fuel + 1, first, keywords => do
    if ← acceptMark ")" then pure ([], keywords.reverse)
    else
      if !first then expectMark ","
      if ← acceptMark ")" then
        if first then fail else pure ([], keywords.reverse)
      else if ← acceptMark "**" then
        let e ← expr fuel
        arguments fuel false (.mk none e :: keywords)
      else if ← acceptMark "*" then
        if keywords.any fun | .mk name _ => name.isNone then fail
        else
          let e ← expr fuel
          let (rest, keywords) ← arguments fuel false keywords
          pure (.starred e :: rest, keywords)
      else
        let e ← expr fuel
        if ← acceptMark "=" then
          match e with
          | .name _ id =>
            let e ← expr fuel
            arguments fuel false (.mk (some id) e :: keywords)
          | _ => fail
        else if (← peek) = .keyword "for" then
          let clauses ← clauses fuel
          let e := Expr.comprehension .generator e clauses
          let (rest, keywords) ← arguments fuel false keywords
          if first && rest.isEmpty && keywords.isEmpty then pure ([e], []) else fail
        else if !keywords.isEmpty then fail
        else
          let (rest, keywords) ← arguments fuel false keywords
          pure (e :: rest, keywords)

def subscript : Nat → Parse Expr
  | 0 => fail
  | fuel + 1 => do
    let first ← sliceOrExpr fuel
    if ← acceptMark "," then pure (.tuple (first :: (← slices fuel))) else pure first

def slices : Nat → Parse (List Expr)
  | 0 => fail
  | fuel + 1 => do
    if ← isMark ["]"] then pure []
    else
      let e ← sliceOrExpr fuel
      if ← acceptMark "," then pure (e :: (← slices fuel)) else pure [e]

def sliceOrExpr : Nat → Parse Expr
  | 0 => fail
  | fuel + 1 => do
    let start ← bound fuel
    if ← acceptMark ":" then
      let stop ← bound fuel
      let step ← if ← acceptMark ":" then bound fuel else pure none
      pure (.slice start stop step)
    else
      match start with
      | some e => pure e
      | none => fail

/-- Reads a bound of a slice, if one comes next. -/
def bound : Nat → Parse (Option Expr)
  | 0 => fail
  | fuel + 1 => do
    if ← isMark [":", "]", ","] then pure none else pure (some (← expr fuel))

def atom : Nat → Parse Expr
  | 0 => fail
  | fuel + 1 => do
    let l ← line
    match ← peek with
    | .name id =>
      skip
      pure (.name l id)
    | .number n =>
      skip
      pure (.constant n)
    | .text s =>
      skip
      pure (.constant (.text (← moreText fuel s)))
    | .bytes content =>
      skip
      pure (.bytes (← moreBytes fuel content))
    | .keyword "None" =>
      skip
      pure (.constant .none)
    | .keyword "True" =>
      skip
      pure (.constant (.bool true))
    | .keyword "False" =>
      skip
      pure (.constant (.bool false))
    | .mark "..." =>
      skip
      pure .ellipsis
    | .mark "(" =>
      skip
      round fuel
    | .mark "[" =>
      skip
      square fuel
    | .mark m =>
      if m = "\x7b" then
        skip
        curly fuel
      else fail
    | _ => fail

/-- Reads what stands behind an opening round bracket. -/
def round : Nat → Parse Expr
  | 0 => fail
  | fuel + 1 => do
    if ← acceptMark ")" then pure (.tuple [])
    else
      let first ← starredOrExpr fuel
      if (← peek) = .keyword "for" then
        let clauses ← clauses fuel
        expectMark ")"
        pure (.comprehension .generator first clauses)
      else if ← acceptMark "," then
        let rest ← items fuel ")"
        expectMark ")"
        pure (.tuple (first :: rest))
      else
        expectMark ")"
        match first with
        | .starred _ => fail
        | e => pure e

def square : Nat → Parse Expr
  | 0 => fail
  | fuel + 1 => do
    if ← acceptMark "]" then pure (.list [])
    else
      let first ← starredOrExpr fuel
      if (← peek) = .keyword "for" then
        let clauses ← clauses fuel
        expectMark "]"
        pure (.comprehension .list first clauses)
      else
        let rest ← if ← acceptMark "," then items fuel "]" else pure []
        expectMark "]"
        pure (.list (first :: rest))

def curly : Nat → Parse Expr
  | 0 => fail
  | fuel + 1 => do
    if ← acceptMark "\x7d" then pure (.dict [])
    else if ← acceptMark "**" then
      let e ← level fuel operatorLevels
      let rest ← if ← acceptMark "," then entries fuel else pure []
      expectMark "\x7d"
      pure (.dict (.mk none e :: rest))
    else
      let first ← starredOrExpr fuel
      if ← acceptMark ":" then
        let value ← expr fuel
        if (← peek) = .keyword "for" then
          let clauses ← clauses fuel
          expectMark "\x7d"
          pure (.dictComprehension first value clauses)
        else
          let rest ← if ← acceptMark "," then entries fuel else pure []
          expectMark "\x7d"
          pure (.dict (.mk (some first) value :: rest))
      else if (← peek) = .keyword "for" then
        let clauses ← clauses fuel
        expectMark "\x7d"
        pure (.comprehension .set first clauses)
      else
        let rest ← if ← acceptMark "," then items fuel "\x7d" else pure []
        expectMark "\x7d"
        pure (.set (first :: rest))

def entries : Nat → Parse (List Entry)
  | 0 => fail
  | fuel + 1 => do
    if ← isMark ["\x7d"] then pure []
    else
      let entry ←
        if ← acceptMark "**" then pure (Entry.mk none (← level fuel operatorLevels))
        else do
          let key ← expr fuel
          expectMark ":"
          pure (Entry.mk (some key) (← expr fuel))
      if ← acceptMark "," then pure (entry :: (← entries fuel)) else pure [entry]

/-- Reads items up to a closing bracket, which is left. -/
def items : Nat → String → Parse (List Expr)
  | 0, _ => fail
  | fuel + 1, closing => do
    if ← isMark [closing] then pure []
    else
      let e ← starredOrExpr fuel
      if ← acceptMark "," then pure (e :: (← items fuel closing)) else pure [e]

def starredOrExpr : Nat → Parse Expr
  | 0 => fail
  | fuel + 1 => do
    if ← acceptMark "*" then pure (.starred (← level fuel operatorLevels)) else expr fuel

def clauses : Nat → Parse (List Clause)
  | 0 => fail
  | fuel + 1 => do
    if ← acceptWord "for" then
      let target ← targets fuel
      expectWord "in"
      let source ← anyOf fuel
      let conditions ← conditions fuel
      pure (.mk target source conditions :: (← clauses fuel))
    else pure []

def conditions : Nat → Parse (List Expr)
  | 0 => fail
  | fuel + 1 => do
    if ← acceptWord "if" then
      let e ← anyOf fuel
      pure (e :: (← conditions fuel))
    else pure []

/-- Reads what a loop assigns to. -/
def targets : Nat → Parse Expr
  | 0 => fail
  | fuel + 1 => do
    let first ← target fuel
    if ← acceptMark "," then pure (.tuple (first :: (← moreTargets fuel))) else pure first

def moreTargets : Nat → Parse (List Expr)
  | 0 => fail
  | fuel + 1 => do
    if (← peek) = .keyword "in" then pure []
    else
      let e ← target fuel
      if ← acceptMark "," then pure (e :: (← moreTargets fuel)) else pure [e]

def target : Nat → Parse Expr
  | 0 => fail
  | fuel + 1 => do
    if ← acceptMark "*" then pure (.starred (← level fuel operatorLevels))
    else level fuel operatorLevels

/-- Reads parameters up to a closing mark, which is left. -/
def parameters : Nat → String → Bool → Parse Parameters
  | 0, _, _ => fail
  | fuel + 1, closing, annotated => do
    match splitDefaults (← plainParameters fuel closing annotated) with
    | none => fail
    | some (names, defaults) =>
      let isStarred ← acceptMark "*"
      let rest ← if isStarred then restParameter fuel annotated else pure none
      let hasMore ← if isStarred then acceptMark "," else pure false
      let named ← if hasMore then plainParameters fuel closing annotated else pure []
      if isStarred && rest.isNone && named.isEmpty then fail
      let isDoubled ← acceptMark "**"
      let namedRest ← if isDoubled then restParameter fuel annotated else pure none
      if isDoubled && namedRest.isNone then fail
      if isDoubled then discard (acceptMark ",")
      pure (.mk names defaults rest (named.map fun (id, e) => .mk id e) namedRest)

/-- Reads the name behind a star, if there is one. -/
def restParameter : Nat → Bool → Parse (Option String)
  | 0, _ => fail
  | fuel + 1, annotated => do
    match ← peek with
    | .name id =>
      skip
      annotation fuel annotated
      pure (some id)
    | _ => pure none

/-- Reads parameters with their defaults, as long as they come without a mark. -/
def plainParameters : Nat → String → Bool → Parse (List (String × Option Expr))
  | 0, _, _ => fail
  | fuel + 1, closing, annotated => do
    if ← isMark [closing, "*", "**"] then pure []
    else
      let id ← name
      annotation fuel annotated
      let default ← if ← acceptMark "=" then pure (some (← expr fuel)) else pure none
      if ← acceptMark "," then pure ((id, default) :: (← plainParameters fuel closing annotated))
      else pure [(id, default)]

/-- Passes over the annotation of a parameter. -/
def annotation : Nat → Bool → Parse Unit
  | 0, _ => fail
  | fuel + 1, annotated => do
    if annotated then
      if ← acceptMark ":" then discard (expr fuel)

end

end Parse

end ModelPlaybook.Script
