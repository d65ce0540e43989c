import ModelPlaybook.Number.WholeText
import ModelPlaybook.Value.Basic

/-!
# The text of values

A value has a shown form, in which text is quoted and every kind can be told apart, and a plain
text, which differs from it only for the values that have a text of their own.  Writing either one
is a fault where a whole number with too many digits or the stand-in for a blocked name lies inside.
-/

namespace ModelPlaybook

/-- The shown form of a scalar. -/
def Scalar.shown : Scalar → String
  | .none => "None"
  | .bool b => if b then "True" else "False"
  | .int n => toString n
  | .float x => x.text
  | .decimal d => d.shown
  | .text s => Text.quoted s
  | .date d => d.shown
  | .dateTime t => t.shown
  | .duration d => d.shown

/-- The plain text of a scalar. -/
def Scalar.plainText : Scalar → String
  | .text s => s
  | .decimal d => d.text
  | .date d => d.iso
  | .dateTime t => t.text
  | .duration d => d.text
  | s => s.shown

namespace Value

/-- The shown form of a tuple; a single item keeps a comma. -/
def tupleText : List String → String
  | [x] => "(" ++ x ++ ",)"
  | xs => "(" ++ ", ".intercalate xs ++ ")"

def mapText (entries : List String) : String :=
  "\x7b" ++ ", ".intercalate entries ++ "\x7d"

/-- The shown form of a set; an empty one has no brackets of its own. -/
def setText : List String → String
  | [] => "set()"
  | xs => "\x7b" ++ ", ".intercalate xs ++ "\x7d"

def frozenSetText : List String → String
  | [] => "frozenset()"
  | xs => "frozenset(\x7b" ++ ", ".intercalate xs ++ "\x7d)"

mutual

/-- The shown form of a value. -/
def shown : Value → String
  | .scalar s => s.shown
  | .list items => "[" ++ ", ".intercalate (shownItems items) ++ "]"
  | .tuple items => tupleText (shownItems items)
  | .map entries => mapText (shownEntries entries)
  | .frozenMap entries => "mappingproxy(" ++ mapText (shownEntries entries) ++ ")"
  | .set items => setText (shownItems items)
  | .frozenSet items => frozenSetText (shownItems items)
  | .bytes content => Text.quotedBytes content
  | .derived expression => "DerivedInput(derived=" ++ Text.quoted expression ++ ")"
  | .foreign name _ => "<" ++ name ++ " object>"
termination_by structural v => v

def shownItems : List Value → List String
  | [] => []
  | x :: xs => shown x :: shownItems xs
termination_by structural xs => xs

def shownEntries : List (Value × Value) → List String
  | [] => []
  | (k, v) :: rest => (shown k ++ ": " ++ shown v) :: shownEntries rest
termination_by structural xs => xs

end

mutual

/-- The fault with which writing a value stops, at the first part that cannot be written. -/
def writeFault? : Value → Option Fault
  | .scalar (.int n) => if WholeText.isWritable n then Option.none else some WholeText.unwritable
  | .scalar _ => Option.none
  | .list items => itemsFault? items
  | .tuple items => itemsFault? items
  | .map entries => entriesFault? entries
  | .frozenMap entries => entriesFault? entries
  | .set items => itemsFault? items
  | .frozenSet items => itemsFault? items
  | .bytes _ => Option.none
  | .derived _ => Option.none
  | .foreign _ (.blocked name _) => some (.denied name)
  | .foreign _ _ => Option.none
termination_by structural v => v

def itemsFault? : List Value → Option Fault
  | [] => Option.none
  | x :: xs => (writeFault? x).or (itemsFault? xs)
termination_by structural xs => xs

def entriesFault? : List (Value × Value) → Option Fault
  | [] => Option.none
  | (k, v) :: rest => ((writeFault? k).or (writeFault? v)).or (entriesFault? rest)
termination_by structural xs => xs

end

-- What stops the writing of parts is what stops the writing of one of them.
mutual

/-- Writing stops at a number that is too long or at a stand-in. -/
theorem writeFault?_cases {f : Fault} (v : Value) (hf : v.writeFault? = some f) :
    f = WholeText.unwritable ∨ ∃ name, f = .denied name := by
  match v with
  | .scalar s =>
      cases s with
      | int n =>
          rw [writeFault?] at hf
          split at hf
          · cases hf
          · exact .inl (Option.some.inj hf).symm
      | _ => cases hf
  | .list items | .tuple items | .set items | .frozenSet items => exact itemsFault?_cases items hf
  | .map entries | .frozenMap entries => exact entriesFault?_cases entries hf
  | .bytes _ | .derived _ => cases hf
  | .foreign _ origin =>
      cases origin with
      | blocked name n => exact .inr ⟨name, (Option.some.inj hf).symm⟩
      | _ => cases hf
termination_by structural v

theorem itemsFault?_cases {f : Fault} (items : List Value) (hf : itemsFault? items = some f) :
    f = WholeText.unwritable ∨ ∃ name, f = .denied name := by
  match items with
  | [] => cases hf
  | x :: xs =>
      rcases Option.or_eq_some_iff.mp hf with hx | ⟨-, hxs⟩
      · exact writeFault?_cases x hx
      · exact itemsFault?_cases xs hxs
termination_by structural items

theorem entriesFault?_cases {f : Fault} (entries : List (Value × Value))
    (hf : entriesFault? entries = some f) :
    f = WholeText.unwritable ∨ ∃ name, f = .denied name := by
  match entries with
  | [] => cases hf
  | (k, v) :: rest =>
      rcases Option.or_eq_some_iff.mp hf with hentry | ⟨-, hrest⟩
      · rcases Option.or_eq_some_iff.mp hentry with hk | ⟨-, hv⟩
        · exact writeFault?_cases k hk
        · exact writeFault?_cases v hv
      · exact entriesFault?_cases rest hrest
termination_by structural entries

end

/-- The plain text of a value. -/
def plainText : Value → String
  | .scalar s => s.plainText
  | .frozenMap entries => mapText (shownEntries entries)
  | .derived expression => "derived=" ++ Text.quoted expression
  | v => v.shown

/-- The shown form of a value, if it can be written. -/
def writeShown (v : Value) : Except Fault String :=
  match v.writeFault? with
  | Option.none => .ok v.shown
  | some f => .error f

/-- The plain text of a value, if it can be written. -/
def writePlain (v : Value) : Except Fault String :=
  match v.writeFault? with
  | Option.none => .ok v.plainText
  | some f => .error f

end Value

end ModelPlaybook
