/-!
# YAML tokens

The pieces that a YAML text is cut into.  Nesting by indentation shows in the tokens as starts and
ends of blocks, so that nothing after this depends on columns.
-/

namespace ModelPlaybook.Yaml

/-- How a tag is written: by its whole name, or by a handle and the rest of the name. -/
inductive TagText where
  | whole (name : String)
  | short (handle suffix : String)
deriving DecidableEq, Repr

/-- A line of instructions to the reader. -/
inductive Directive where
  | version (major minor : Nat)
  | shorthand (handle expansion : String)
  | other (name : String)
deriving DecidableEq, Repr

inductive Token where
  | streamEnd
  | directive (d : Directive)
  | documentStart
  | documentEnd
  | blockSequenceStart
  | blockMappingStart
  | blockEnd
  | flowSequenceStart
  | flowSequenceEnd
  | flowMappingStart
  | flowMappingEnd
  | blockEntry
  | flowEntry
  | key
  | value
  | reference (name : String)
  | anchor (name : String)
  | tag (t : TagText)
  | scalar (text : String) (plain : Bool)
deriving DecidableEq, Repr

end ModelPlaybook.Yaml
