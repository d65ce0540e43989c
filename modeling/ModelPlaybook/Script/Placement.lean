import ModelPlaybook.Script.Tree

/-!
# Statements in the wrong place

Some statements only make sense inside a function or inside a loop.
-/

namespace ModelPlaybook.Script

/-- A statement that stands where it has no meaning. -/
inductive Misplaced where
  | giveBack (line : Nat)
  | breakLoop (line : Nat)
  | continueLoop (line : Nat)
  | catchAll (line : Nat)
  | repeatedParameter (line : Nat) (name : String)
deriving DecidableEq, Repr

namespace Misplaced

def line : Misplaced → Nat
  | giveBack line => line
  | breakLoop line => line
  | continueLoop line => line
  | catchAll line => line
  | repeatedParameter line _ => line

def problem : Misplaced → String
  | giveBack _ => "'return' outside function"
  | breakLoop _ => "'break' outside loop"
  | continueLoop _ => "'continue' not properly in loop"
  | catchAll _ => "default 'except:' must be last"
  | repeatedParameter _ name => "duplicate argument '" ++ name ++ "' in function definition"

/-- The message, with the place in the script. -/
def text (m : Misplaced) : String :=
  m.problem ++ " (<model-logic>, line " ++ toString m.line ++ ")"

end Misplaced

/-- What surrounds a statement. -/
structure Surroundings where
  inFunction : Bool
  inLoop : Bool
deriving DecidableEq, Repr

/-- The first name that comes twice. -/
def repeatedName? : List String → Option String
  | [] => none
  | name :: rest => if rest.contains name then some name else repeatedName? rest

/-- A handler for all errors before the last handler. -/
def earlyCatchAll? : List Handler → Option Misplaced
  | .mk line none _ _ :: _ :: _ => some (.catchAll line)
  | _ :: rest => earlyCatchAll? rest
  | [] => none

mutual

/-- The first misplaced statement in a statement. -/
def misplacedIn (s : Surroundings) : Stmt → Option Misplaced
  | .giveBack line _ => if s.inFunction then none else some (.giveBack line)
  | .breakLoop line => if s.inLoop then none else some (.breakLoop line)
  | .continueLoop line => if s.inLoop then none else some (.continueLoop line)
  | .branch _ body otherwise => (misplacedAmong s body).or (misplacedAmong s otherwise)
  | .whileLoop _ body otherwise =>
    (misplacedAmong ⟨s.inFunction, true⟩ body).or (misplacedAmong s otherwise)
  | .forLoop _ _ body otherwise =>
    (misplacedAmong ⟨s.inFunction, true⟩ body).or (misplacedAmong s otherwise)
  | .attempt body handlers otherwise final =>
    (misplacedAmong s body).or <| (earlyCatchAll? handlers).or <|
      (misplacedInHandlers s handlers).or <| (misplacedAmong s otherwise).or
        (misplacedAmong s final)
  | .define line _ parameters body _ =>
    ((repeatedName? parameters.names).map (.repeatedParameter line)).or
      (misplacedAmong ⟨true, false⟩ body)
  | .defineClass _ _ _ _ body _ => misplacedAmong ⟨false, false⟩ body
  | _ => none
termination_by structural s => s

def misplacedAmong (s : Surroundings) : List Stmt → Option Misplaced
  | [] => none
  | stmt :: rest => (misplacedIn s stmt).or (misplacedAmong s rest)
termination_by structural ss => ss

def misplacedInHandlers (s : Surroundings) : List Handler → Option Misplaced
  | [] => none
  | .mk _ _ _ body :: rest => (misplacedAmong s body).or (misplacedInHandlers s rest)
termination_by structural hs => hs

end

/-- The first misplaced statement of a script. -/
def misplaced? (script : List Stmt) : Option Misplaced :=
  misplacedAmong ⟨false, false⟩ script

end ModelPlaybook.Script
