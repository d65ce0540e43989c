import ModelPlaybook.Fault

/-!
# Why a YAML text gives no value

A text can be malformed, or a scalar in it may not fit the tag that it has.  A misfit is a fault of
the value and keeps its own kind; everything else is a problem of the text.
-/

namespace ModelPlaybook.Yaml

/-- What is wrong with a text. -/
inductive Problem where
  | unprintable
  | strayCharacter (c : Char)
  | missingColon
  | entryNotAllowed
  | keyNotAllowed
  | valueNotAllowed
  | directiveName
  | directiveNumber
  | directiveTail
  | repeatedVersion
  | foreignVersion
  | repeatedHandle (handle : String)
  | anchorName
  | tagHandle
  | tagAddress
  | tagEscape
  | tagTail
  | blockHeader
  | unknownEscape (c : Char)
  | escapeDigits (count : Nat)
  | separatorInQuotes
  | unclosedQuotes
  | undefinedHandle (handle : String)
  | missingNode
  | unclosedBlock
  | unclosedSequence
  | unclosedMapping
  | missingDocumentStart
  | secondDocument
  | undefinedAlias (name : String)
  | repeatedAnchor (name : String)
  | notScalar
  | notSequence
  | notMapping
  | notSingleEntry
  | notMergeable
  | unknownTag (name : String)
  | unhashableKey
  | badBinary
  | tooDeep
deriving DecidableEq, Repr

def Problem.text : Problem → String
  | unprintable => "special characters are not allowed"
  | strayCharacter c => "found character " ++ Text.quoted (String.singleton c) ++
      " that cannot start any token"
  | missingColon => "could not find expected ':'"
  | entryNotAllowed => "sequence entries are not allowed here"
  | keyNotAllowed => "mapping keys are not allowed here"
  | valueNotAllowed => "mapping values are not allowed here"
  | directiveName => "expected the name of a directive"
  | directiveNumber => "expected a version number"
  | directiveTail => "expected a comment or a line break"
  | repeatedVersion => "found duplicate YAML directive"
  | foreignVersion => "found incompatible YAML document (version 1.* is required)"
  | repeatedHandle handle => "duplicate tag handle " ++ Text.quoted handle
  | anchorName => "expected alphabetic or numeric character"
  | tagHandle => "expected '!'"
  | tagAddress => "expected URI"
  | tagEscape => "expected URI escape sequence of 2 hexadecimal numbers"
  | tagTail => "expected ' ' after a tag"
  | blockHeader => "expected chomping or indentation indicators"
  | unknownEscape c => "found unknown escape character " ++ Text.quoted (String.singleton c)
  | escapeDigits count =>
    "expected escape sequence of " ++ toString count ++ " hexadecimal numbers"
  | separatorInQuotes => "found unexpected document separator"
  | unclosedQuotes => "found unexpected end of stream"
  | undefinedHandle handle => "found undefined tag handle " ++ Text.quoted handle
  | missingNode => "expected the node content"
  | unclosedBlock => "expected <block end>"
  | unclosedSequence => "expected ',' or ']'"
  | unclosedMapping => "expected ',' or '\x7d'"
  | missingDocumentStart => "expected '<document start>'"
  | secondDocument => "expected a single document in the stream"
  | undefinedAlias name => "found undefined alias " ++ Text.quoted name
  | repeatedAnchor name => "found duplicate anchor " ++ Text.quoted name
  | notScalar => "expected a scalar node"
  | notSequence => "expected a sequence node"
  | notMapping => "expected a mapping node"
  | notSingleEntry => "expected a mapping of length 1"
  | notMergeable => "expected a mapping or list of mappings for merging"
  | unknownTag name => "could not determine a constructor for the tag " ++ Text.quoted name
  | unhashableKey => "found unhashable key"
  | badBinary => "failed to decode base64 data"
  | tooDeep => "the text nests too deeply"

inductive Failure where
  | malformed (problem : Problem)
  | misfit (fault : Fault)
deriving DecidableEq, Repr

/-- What a reader of YAML gives. -/
abbrev Result (α : Type) := Except Failure α

def refuse {α : Type} (problem : Problem) : Result α :=
  .error (.malformed problem)

end ModelPlaybook.Yaml
