import ModelPlaybook.Value.Basic

/-!
# Script tokens

The pieces that a script is cut into.  Lines and their indentation show as tokens of their own.
-/

namespace ModelPlaybook.Script

inductive Lexeme where
  | name (id : String)
  | keyword (word : String)
  | number (s : Scalar)
  | text (s : String)
  | bytes (content : List UInt8)
  | mark (symbol : String)
  | newline
  | indent
  | dedent
  | finish
deriving DecidableEq, Repr

structure Token where
  line : Nat
  lexeme : Lexeme
deriving DecidableEq, Repr

/-- A script that cannot be read, and the line where that shows. -/
structure Malformed where
  line : Nat
deriving DecidableEq, Repr

namespace Token

/-- The words that are no names. -/
def keywords : List String :=
  ["False", "None", "True", "and", "as", "assert", "async", "await", "break", "class", "continue",
    "def", "del", "elif", "else", "except", "finally", "for", "from", "global", "if", "import",
    "in", "is", "lambda", "nonlocal", "not", "or", "pass", "raise", "return", "try", "while",
    "with", "yield"]

/-- The operators and delimiters, the longer ones before their first characters. -/
def marks : List String :=
  ["**=", "//=", ">>=", "<<=", "...", "!=", "->", ":=", "**", "//", ">>", "<<", "<=", ">=", "==",
    "+=", "-=", "*=", "/=", "%=", "@=", "&=", "|=", "^=", "+", "-", "*", "/", "%", "@", "&", "|",
    "^", "~", "<", ">", "(", ")", "[", "]", "\x7b", "\x7d", ",", ":", ".", ";", "="]

def openingMarks : List String := ["(", "[", "\x7b"]

def closingMarks : List String := [")", "]", "\x7d"]

end Token

end ModelPlaybook.Script
