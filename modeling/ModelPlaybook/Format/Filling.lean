import ModelPlaybook.Format.Directive

/-!
# Text with directives

A directive starts with a percent sign and ends with a letter.  Between them may stand a key in
parentheses, flags, a width and a precision.  Directives without a key take their arguments in
order, and all arguments have to be used.

What arguments are is left open: a `Source` says how to look at them.
-/

namespace ModelPlaybook.Format

/-- How arguments of a type are looked at in the course of a computation. -/
structure Source (m : Type → Type) (α : Type) where
  /-- Goes on with a result, or stops at its fault. -/
  lift {β : Type} (r : Except Fault β) : m β
  plainText (a : α) : m String
  shown (a : α) : m String
  /-- The value of a scalar or a run of bytes; of other arguments only its type counts. -/
  value (a : α) : m Value
  /-- The arguments that an argument groups. -/
  group? (a : α) : Option (List α)
  /-- Whether items can be looked up in an argument that is no text. -/
  isMapping (a : α) : m Bool
  /-- The item under a key. -/
  item (a : α) (key : Value) : m α

/-- What arguments a text may still take: those in order, and those of a mapping by key. -/
structure Arguments (α : Type) where
  queue : List α
  mapping : Option α

def incomplete : Fault := .ofValue "incomplete format"

def notEnough : Fault := .ofType "not enough arguments for format string"

def Medium.unused (medium : Medium) : Fault :=
  .ofType ("not all arguments converted during " ++
    (match medium with
    | .text => "string"
    | .bytes => "bytes") ++ " formatting")

/-- The characters of a key up to the parenthesis that closes it, and the rest. -/
def readKey : Nat → List Char → Option (List Char × List Char)
  | _, [] => none
  | depth, c :: rest =>
    if c = ')' ∧ depth = 0 then some ([], rest)
    else
      let depth := if c = '(' then depth + 1 else if c = ')' then depth - 1 else depth
      (readKey depth rest).map fun (key, rest) => (c :: key, rest)

/-- A key as a value to look up. -/
def Medium.keyOf (medium : Medium) (cs : List Char) : Value :=
  match medium with
  | .text => .text (String.ofList cs)
  | .bytes => .bytes (cs.map fun c => UInt8.ofNat c.toNat)

/-- A width or a precision, and where it comes from. -/
inductive Amount where
  | absent
  | digits (n : Nat)
  | argument (n : Int)

/-- The largest width and the largest precision. -/
def widthBound : Nat := 2 ^ (63 : Nat) - 1

def precisionBound : Nat := 2 ^ (31 : Nat) - 1

section

variable {m : Type → Type} [Monad m] {α : Type} (source : Source m α)

/-- The arguments that an object on the right of a text gives. -/
def Arguments.ofObject (medium : Medium) (a : α) : m (Arguments α) := do
  match source.group? a with
  | some items => pure ⟨items, none⟩
  | none =>
    let isContent :=
      match medium, ← source.value a with
      | .bytes, .bytes _ => true
      | _, _ => false
    pure ⟨[a], if !isContent && (← source.isMapping a) then some a else none⟩

/-- The next argument in order. -/
def Arguments.next (a : Arguments α) : m (α × Arguments α) :=
  match a.queue with
  | [] => source.lift (.error notEnough)
  | x :: rest => pure (x, { a with queue := rest })

/-- Reads an amount, or takes it from the arguments where a star stands for it. -/
def readAmount (bound : Nat) (tooBig bigArgument : String) (a : Arguments α) (cs : List Char) :
    m (Amount × Arguments α × List Char) := do
  match cs with
  | '*' :: rest =>
    let (x, a) ← a.next source
    let n ←
      match ← source.value x with
      | .int n => pure n
      | .bool b => pure (if b then 1 else 0)
      | _ => source.lift (.error (.ofType "* wants int"))
    if n < -(bound : Int) - 1 ∨ (bound : Int) < n then
      source.lift (.error ⟨.overflow, "Python int too large to convert to C " ++ bigArgument⟩)
    else pure (.argument n, a, rest)
  | cs =>
    let ds := cs.takeWhile Text.isAsciiDigit
    if ds.isEmpty then pure (.absent, a, cs)
    else
      let n := Text.natOfDigits ds
      if bound < n then source.lift (.error (.ofValue (tooBig ++ " too big")))
      else pure (.digits n, a, cs.drop ds.length)

/-- The form of an argument. -/
def render (medium : Medium) (d : Directive) (form : Form) (x : α) : m (List Char) := do
  match form with
  | .plain => source.lift (d.layOutText (← source.plainText x).toList)
  | .shown => source.lift (d.layOutText (← source.shown x).toList)
  | .ascii => source.lift (d.layOutText (Text.asciiOnly (← source.shown x)).toList)
  | .content =>
    let v ← source.value x
    source.lift do d.layOutText (← contentArgument v)
  | .char =>
    let v ← source.value x
    source.lift do d.layOutChar (← medium.charArgument v)
  | .cut =>
    let v ← source.value x
    source.lift do d.layOutWhole 10 [] (← d.cutArgument v)
  | .whole base mark =>
    let v ← source.value x
    source.lift do d.layOutWhole base mark (← d.wholeArgument v)
  | .real =>
    let v ← source.value x
    source.lift do d.layOutReal (← medium.realArgument v)

/-- Takes the argument of a directive from a mapping if a key stands there. -/
def readKeyed (medium : Medium) (a : Arguments α) (cs : List Char) :
    m (Arguments α × List Char) := do
  match cs with
  | '(' :: rest =>
    match a.mapping with
    | none => source.lift (.error (.ofType "format requires a mapping"))
    | some mapping =>
      match readKey 0 rest with
      | none => source.lift (.error (.ofValue "incomplete format key"))
      | some (key, rest) =>
        -- A keyed argument takes the place of all arguments from here on.
        pure ({ a with queue := [← source.item mapping (medium.keyOf key)] }, rest)
  | cs => pure (a, cs)

/-- Fills one directive, of which the percent sign has been read.  Gives its text, the arguments
that are left, and the rest of the text. -/
def fillOne (medium : Medium) (length : Nat) (a : Arguments α) (cs : List Char) :
    m (List Char × Arguments α × List Char) := do
  match cs with
  | '%' :: rest => pure (['%'], a, rest)
  | cs =>
    let (a, cs) ← readKeyed source medium a cs
    let (d, cs) := readFlags {} cs
    let (width, a, cs) ← readAmount source widthBound "width" "ssize_t" a cs
    let d :=
      match width with
      | .absent => d
      | .digits n => { d with width := n }
      | .argument n => { d with width := n.natAbs, alignLeft := d.alignLeft || decide (n < 0) }
    let (precision, a, cs) ←
      match cs with
      | '.' :: rest => do
        let (n, a, rest) ← readAmount source precisionBound "precision" "int" a rest
        pure (some n, a, rest)
      | cs => pure (none, a, cs)
    let d :=
      match precision with
      | none => d
      | some .absent => { d with precision := some 0 }
      | some (.digits n) => { d with precision := some n }
      | some (.argument n) => { d with precision := some n.toNat }
    let behindNumber :=
      match precision, width with
      | some (.digits _), _ => true
      | none, .digits _ => true
      | _, _ => false
    let sized := cs.head?.any fun c => c = 'h' ∨ c = 'l' ∨ c = 'L'
    match if sized then cs.drop 1 else cs with
    | [] => source.lift (.error incomplete)
    | c :: rest =>
      let (x, a) ← a.next source
      match medium.form? c with
      | some form => 
        pure (← render source medium { d with letter := medium.namedLetter c } form x, a, rest)
      | none =>
        let index := length - (rest.length + 1)
        source.lift (.error (medium.unknownLetter c index (behindNumber && !sized)))

/-- Fills the directives of a text; the fuel bounds the characters that are left.  What has been
filled in is kept in reverse. -/
def fillAll (medium : Medium) (length : Nat) :
    Nat → Arguments α → List Char → List Char → m (List Char × Arguments α)
  | 0, a, done, _ => pure (done.reverse, a)
  | _ + 1, a, done, [] => pure (done.reverse, a)
  | fuel + 1, a, done, '%' :: rest => do
    let (cs, a, rest) ← fillOne source medium length a rest
    fillAll medium length fuel a (cs.reverseAux done) rest
  | fuel + 1, a, done, c :: rest => fillAll medium length fuel a (c :: done) rest

/-- The characters of a text whose directives are filled by an argument, or by those that it
groups. -/
def fill (medium : Medium) (cs : List Char) (x : α) : m (List Char) := do
  let length := cs.length
  let (done, a) ← fillAll source medium length (length + 1)
    (← Arguments.ofObject source medium x) [] cs
  if a.queue.isEmpty || a.mapping.isSome then pure done
  else source.lift (.error medium.unused)

/-- A text whose directives are filled. -/
def fillText (s : String) (x : α) : m String := do
  pure (String.ofList (← fill source .text s.toList x))

/-- A run of bytes whose directives are filled. -/
def fillBytes (content : List UInt8) (x : α) : m (List UInt8) := do
  let cs ← fill source .bytes (content.map fun b => Char.ofNat b.toNat) x
  pure (cs.map fun c => UInt8.ofNat c.toNat)

end

end ModelPlaybook.Format
