import Mathlib.Data.List.TakeWhile
import ModelPlaybook.Proofs.Expression.Reader
import ModelPlaybook.Proofs.Expression.Scanning
import ModelPlaybook.Proofs.Number.Digits

/-!
# Trees as texts

A tree can be written in many ways: blanks may stand between any two tokens, and parentheses may
stand around any part.  They have to stand around what binds looser than its place asks for, which
is an operator inside a tighter one, a right side of the same level, or whatever a minus sign goes
before.  Each of these texts is read as the tree it was written from, and every reference knows
where it starts.
-/

namespace ModelPlaybook.Expression

/-- The level of the trees that an operator joins, and the character that writes it. -/
def Operator.written? : Operator → Option (Level × Char)
  | plus => some (.sum, '+')
  | minus => some (.sum, '-')
  | times => some (.product, '*')
  | divide => some (.product, '/')
  | other _ => none

def AreBlanks (cs : List Char) : Prop :=
  ∀ c ∈ cs, Text.isBlank c = true

/-- Characters from a position on write a tree in a place of a level.  A reference carries the
position where it starts. -/
inductive Renders : Level → Nat → List Char → Tree → Prop where
  | number {place : Level} {position : Nat} {digits : List Char} (hsome : digits ≠ [])
      (hdigits : ∀ c ∈ digits, Text.isAsciiDigit c = true)
      (hlimit : digits.length ≤ Text.integerDigitLimit) :
      Renders place position digits (.number (.int (Text.natOfDigits digits)))
  | reference {place : Level} {position : Nat} {scope : Scope} {name : List Char}
      (hname : scope.Spells name) :
      Renders place position (scope.opening.toList ++ name)
        (.reference ⟨scope, String.ofList name, some position⟩)
  | negate {place : Level} {position : Nat} {blanks cs : List Char} {operand : Tree}
      (hblanks : AreBlanks blanks)
      (hoperand : Renders .factor (position + 1 + blanks.length) cs operand) :
      Renders place position ('-' :: (blanks ++ cs)) (.negate operand)
  | binary {place level : Level} {position : Nat} {operator : Operator} {sign : Char}
      {front back ls rs : List Char} {left right : Tree}
      (hsign : operator.written? = some (level, sign)) (hplace : place.rank ≤ level.rank)
      (hfront : AreBlanks front) (hback : AreBlanks back)
      (hleft : Renders level position ls left)
      (hright : Renders level.tighter (position + ls.length + front.length + 1 + back.length) rs
        right) :
      Renders place position (ls ++ (front ++ sign :: (back ++ rs))) (.binary operator left right)
  | parens {place : Level} {position : Nat} {front back cs : List Char} {tree : Tree}
      (hfront : AreBlanks front) (hback : AreBlanks back)
      (hinner : Renders .sum (position + 1 + front.length) cs tree) :
      Renders place position ('(' :: (front ++ (cs ++ (back ++ [')'])))) tree

/-! ## Tokens of a text -/

/-- Wherever characters do not go on as a word, a scan finds these tokens in them. -/
def ScansTo (position : Nat) (cs : List Char) (ts : List Token) : Prop :=
  ∀ dialect text rest, Stops rest →
    scanFrom dialect text position (cs ++ rest) =
      (scanFrom dialect text (position + cs.length) rest).after ts

namespace ScansTo

variable {position : Nat} {cs ds : List Char} {ts us : List Token}

theorem nil : ScansTo position [] [] := by
  intro dialect text rest hrest
  rfl

theorem append (hcs : ScansTo position cs ts) (hds : ScansTo (position + cs.length) ds us)
    (hstops : ∀ rest, Stops (ds ++ rest)) : ScansTo position (cs ++ ds) (ts ++ us) := by
  intro dialect text rest hrest
  calc
    scanFrom dialect text position (cs ++ ds ++ rest)
      = scanFrom dialect text position (cs ++ (ds ++ rest)) := by rw [List.append_assoc]
    _ = (scanFrom dialect text (position + cs.length) (ds ++ rest)).after ts :=
        hcs dialect text _ (hstops rest)
    _ = ((scanFrom dialect text (position + cs.length + ds.length) rest).after us).after ts := by
        rw [hds dialect text rest hrest]
    _ = (scanFrom dialect text (position + (cs ++ ds).length) rest).after (ts ++ us) := by
        rw [Scan.after_after, List.length_append, Nat.add_assoc]

theorem blanks {blanks : List Char} (hblanks : AreBlanks blanks)
    (hcs : ScansTo (position + blanks.length) cs ts) : ScansTo position (blanks ++ cs) ts := by
  intro dialect text rest hrest
  rw [List.append_assoc, scanFrom_blanks hblanks, hcs dialect text rest hrest, List.length_append,
    Nat.add_assoc]

theorem single {c : Char} {l : Lexeme} (hsingle : Lexeme.ofSingle? c = some l)
    (hcs : ScansTo (position + 1) cs ts) : ScansTo position (c :: cs) (⟨l, position⟩ :: ts) := by
  intro dialect text rest hrest
  have hc : Text.isBlank c = false := (chars_of_ofSingle? hsingle).1
  rw [List.cons_append, scanFrom_of_foundAt hc (foundAt_single hsingle _), List.drop_zero,
    hcs dialect text rest hrest, Scan.after_after, List.length_cons]
  congr 2
  omega

theorem number {digits : List Char} (hsome : digits ≠ [])
    (hdigits : ∀ c ∈ digits, Text.isAsciiDigit c = true)
    (hlimit : digits.length ≤ Text.integerDigitLimit) :
    ScansTo position digits [⟨.number (.int (Text.natOfDigits digits)), position⟩] := by
  intro dialect text rest hrest
  obtain ⟨d, ds, rfl⟩ := List.exists_cons_of_ne_nil hsome
  have hd : Text.isBlank d = false := by
    refine isBlank_of_isWordChar ?_
    simp [isWordChar, isNumberChar, hdigits d List.mem_cons_self]
  rw [List.cons_append, scanFrom_of_foundAt hd (foundAt_number hdigits hlimit hrest),
    List.drop_left, List.length_cons]
  congr 2
  omega

theorem field {scope : Scope} {name : List Char} (hname : scope.Spells name) :
    ScansTo position (scope.opening.toList ++ name)
      [⟨.field scope (String.ofList name), position⟩] := by
  intro dialect text rest hrest
  obtain ⟨c, opening, hopening⟩ : ∃ c opening, scope.opening.toList = c :: opening := by
    cases hname <;> exact ⟨_, _, rfl⟩
  have hc : Text.isBlank c = false := by
    cases hname <;> cases hopening <;> decide
  rw [hopening, List.append_assoc, List.cons_append,
    scanFrom_of_foundAt hc (foundAt_field hopening hname hrest), ← List.drop_drop, List.drop_left,
    List.drop_left, List.length_append, List.length_cons]
  congr 2
  omega

end ScansTo

theorem Operator.written?_eq_some {operator : Operator} {level : Level} {sign : Char}
    (hsign : operator.written? = some (level, sign)) :
    ∃ l, Lexeme.ofSingle? sign = some l ∧ level.join? l = some operator := by
  cases operator <;> cases hsign
  · exact ⟨.plus, rfl, rfl⟩
  · exact ⟨.minus, rfl, rfl⟩
  · exact ⟨.star, rfl, rfl⟩
  · exact ⟨.slash, rfl, rfl⟩

theorem stops_behind {blanks rest : List Char} {c : Char} (hblanks : AreBlanks blanks)
    (hc : isWordChar c = false) (more : List Char) : Stops (blanks ++ c :: rest ++ more) := by
  rw [List.append_assoc]
  exact .blanks hblanks (stops_cons hc _)

/-- A rendering of a tree is a sentence that writes it. -/
theorem Renders.exists_tokens {place : Level} {position : Nat} {cs : List Char} {tree : Tree}
    (hrenders : Renders place position cs tree) :
    ∃ ts, ScansTo position cs ts ∧ Writes place ts tree := by
  induction hrenders with
  | @number place position digits hsome hdigits hlimit =>
      refine ⟨_, .number hsome hdigits hlimit, Writes.loosen place.rank_le_factor ?_⟩
      have htoken : (Token.mk (.number (.int (Text.natOfDigits digits))) position).lexeme =
        .number (.int (Text.natOfDigits digits)) := rfl
      exact .number htoken
  | @reference place position scope name hname =>
      exact ⟨_, .field hname, Writes.loosen place.rank_le_factor (.reference rfl)⟩
  | @negate place position blanks cs operand hblanks hoperand ih =>
      obtain ⟨ts, hscans, hwrites⟩ := ih
      exact ⟨_, .single (l := .minus) rfl (.blanks hblanks hscans),
        Writes.loosen place.rank_le_factor (.negate rfl hwrites)⟩
  | binary hsign hplace hfront hback hleft hright ihleft ihright =>
      obtain ⟨ts, hscans, hwrites⟩ := ihleft
      obtain ⟨us, hscans', hwrites'⟩ := ihright
      obtain ⟨l, hsingle, hjoin⟩ := Operator.written?_eq_some hsign
      have hstop := (chars_of_ofSingle? hsingle).2
      refine ⟨_, hscans.append (.blanks hfront (.single hsingle (.blanks hback hscans')))
        fun more => stops_behind hfront hstop more, Writes.loosen hplace ?_⟩
      exact hwrites.join hjoin hwrites'
  | @parens place position front back cs tree hfront hback hinner ih =>
      obtain ⟨ts, hscans, hwrites⟩ := ih
      refine ⟨_, .single (l := .leftParen) rfl (.blanks hfront (hscans.append
        (.blanks hback (.single (l := .rightParen) rfl .nil)) fun more => ?_)),
        Writes.loosen place.rank_le_factor (.parens rfl rfl hwrites)⟩
      exact stops_behind hback (by decide) more

theorem Renders.exists_solid {place : Level} {position : Nat} {cs : List Char} {tree : Tree}
    (hrenders : Renders place position cs tree) : ∃ c ∈ cs, Text.isBlank c = false := by
  cases hrenders with
  | number hsome hdigits hlimit =>
      obtain ⟨d, hd⟩ := List.exists_mem_of_ne_nil cs hsome
      refine ⟨d, hd, isBlank_of_isWordChar ?_⟩
      simp [isWordChar, isNumberChar, hdigits d hd]
  | reference hname =>
      cases hname with
      | intake hname => exact ⟨'i', List.mem_cons_self, by decide⟩
      | steps hstep houtput => exact ⟨'s', List.mem_cons_self, by decide⟩
  | negate hblanks hoperand => exact ⟨'-', List.mem_cons_self, by decide⟩
  | @binary _ level _ operator sign front back ls rs left right hsign hplace hfront hback hleft
      hright =>
      obtain ⟨l, hsingle, -⟩ := Operator.written?_eq_some hsign
      exact ⟨sign, by simp, (chars_of_ofSingle? hsingle).1⟩
  | parens hfront hback hinner => exact ⟨'(', List.mem_cons_self, by decide⟩

/-! ## Reading a text back -/

/-- A text writes a tree, perhaps with blanks before and behind it. -/
def WrittenAs (text : String) (tree : Tree) : Prop :=
  ∃ before cs after, AreBlanks before ∧ AreBlanks after ∧ text.toList = before ++ (cs ++ after) ∧
    Renders .sum before.length cs tree

theorem ofText_of_writtenAs {text : String} {tree : Tree} (hwritten : WrittenAs text tree) :
    Tree.ofText text = .ok tree := by
  obtain ⟨before, cs, after, hbefore, hafter, htext, hrenders⟩ := hwritten
  obtain ⟨ts, hscans, hwrites⟩ := hrenders.exists_tokens
  have hstops : Stops (after ++ []) := .blanks hafter stops_nil
  have hscan : scan .arithmetic text =
      ⟨ts ++ [⟨.ending, before.length + cs.length + after.length⟩], none⟩ := by
    calc
      scan .arithmetic text
        = scanFrom .arithmetic text 0 (before ++ (cs ++ (after ++ []))) := by
          rw [scan, htext, List.append_nil]
      _ = scanFrom .arithmetic text before.length (cs ++ (after ++ [])) := by
          rw [scanFrom_blanks hbefore, Nat.zero_add]
      _ = (scanFrom .arithmetic text (before.length + cs.length) (after ++ [])).after ts :=
          hscans .arithmetic text _ hstops
      _ = (scanFrom .arithmetic text (before.length + cs.length + after.length) []).after ts := by
          rw [scanFrom_blanks hafter]
      _ = ⟨ts ++ [⟨.ending, before.length + cs.length + after.length⟩], none⟩ := by
          rw [scanFrom]
          rfl
  have htokens := tokens_eq_ok_iff.mpr ⟨congrArg Scan.fault? hscan, congrArg Scan.tokens hscan⟩
  have hsolid : Text.isAllBlank text = false := by
    obtain ⟨c, hc, hblank⟩ := hrenders.exists_solid
    refine List.all_eq_false.mpr ⟨c, ?_, by simp [hblank]⟩
    simp [htext, hc]
  rw [Tree.ofText, hsolid, htokens]
  exact Tree.ofTokens_of_writes hwrites rfl

/-- A reference knows the position where its path stands among characters that start at a
position. -/
def Reference.StandsIn (r : Reference) (position : Nat) (cs : List Char) : Prop :=
  ∃ front back, cs = front ++ (r.path.toList ++ back) ∧ r.position = some (position + front.length)

theorem Reference.StandsIn.between {r : Reference} {position inner : Nat} {cs ds : List Char}
    (before after : List Char) (hr : r.StandsIn inner cs)
    (hinner : inner = position + before.length) (hds : ds = before ++ (cs ++ after)) :
    r.StandsIn position ds := by
  obtain ⟨front, back, rfl, hposition⟩ := hr
  refine ⟨before ++ front, back ++ after, by simp [hds], ?_⟩
  rw [hposition, hinner, List.length_append, Nat.add_assoc]

theorem Renders.standsIn {place : Level} {position : Nat} {cs : List Char} {tree : Tree}
    (hrenders : Renders place position cs tree) {r : Reference} (hr : r ∈ tree.references) :
    r.StandsIn position cs := by
  induction hrenders with
  | number hsome hdigits hlimit => simp [Tree.references] at hr
  | reference hname =>
      obtain rfl := List.mem_singleton.mp hr
      exact ⟨[], [], by simp [Reference.path, Scope.opening], rfl⟩
  | @negate place position blanks cs operand hblanks hoperand ih =>
      refine (ih hr).between ('-' :: blanks) [] ?_ (by simp)
      rw [List.length_cons]
      omega
  | @binary place level position operator sign front back ls rs left right hsign hplace hfront
      hback hleft hright ihleft ihright =>
      rcases List.mem_append.mp hr with hr | hr
      · exact (ihleft hr).between [] (front ++ sign :: (back ++ rs)) (by simp) (by simp)
      · refine (ihright hr).between (ls ++ (front ++ sign :: back)) [] ?_ (by simp)
        rw [List.length_append, List.length_append, List.length_cons]
        omega
  | @parens place position front back cs tree hfront hback hinner ih =>
      refine (ih hr).between ('(' :: front) (back ++ [')']) ?_ (by simp)
      rw [List.length_cons]
      omega

/-! ## Trees that texts can write -/

/-- A tree made of whole numbers that are not too long, names of letters, digits and underscores,
minus signs and the four operators. -/
inductive Tree.Expressible : Tree → Prop where
  | number {n : Nat} (hlimit : n < 10 ^ Text.integerDigitLimit) : Expressible (.number (.int n))
  | reference {scope : Scope} {name : String} {position : Option Nat}
      (hname : scope.Spells name.toList) : Expressible (.reference ⟨scope, name, position⟩)
  | negate {operand : Tree} (hoperand : operand.Expressible) : Expressible (.negate operand)
  | binary {operator : Operator} {left right : Tree} (hwritten : operator.written?.isSome = true)
      (hleft : left.Expressible) (hright : right.Expressible) :
      Expressible (.binary operator left right)

/-- The tree without the positions of its references. -/
def Tree.unplaced : Tree → Tree
  | number value => .number value
  | reference target => .reference { target with position := none }
  | negate operand => .negate operand.unplaced
  | binary operator left right => .binary operator left.unplaced right.unplaced
  | misplaced typeName => .misplaced typeName

theorem Renders.of_lt {n : Nat} (hlimit : n < 10 ^ Text.integerDigitLimit) (place : Level)
    (position : Nat) : Renders place position (Text.digitsOfNat n) (.number (.int n)) := by
  have hlength : (Text.digitsOfNat n).length ≤ Text.integerDigitLimit :=
    (Nat.length_toDigits_le_iff (by decide) (by decide)).mpr hlimit
  have hsome : Text.digitsOfNat n ≠ [] := Nat.toDigits_ne_nil
  have hnumber : Renders place position (Text.digitsOfNat n)
      (.number (.int (Text.natOfDigits (Text.digitsOfNat n)))) :=
    .number hsome (fun c hc => isAsciiDigit_of_mem_digitsOfNat hc) hlength
  rwa [natOfDigits_digitsOfNat] at hnumber

theorem Tree.Expressible.exists_renders {tree : Tree} (htree : tree.Expressible) (place : Level)
    (position : Nat) :
    ∃ cs placed, Renders place position cs placed ∧ placed.unplaced = tree.unplaced := by
  have hnone : AreBlanks [] := List.forall_mem_nil _
  induction htree generalizing place position with
  | number hlimit => exact ⟨_, _, .of_lt hlimit place position, rfl⟩
  | reference hname =>
      refine ⟨_, _, .reference hname, ?_⟩
      simp [unplaced]
  | negate hoperand ih =>
      obtain ⟨cs, placed, hrenders, hplaced⟩ := ih .factor (position + 1)
      exact ⟨_, _, .negate hnone hrenders, by simp only [unplaced, hplaced]⟩
  | @binary operator left right hwritten hleft hright ihleft ihright =>
      obtain ⟨⟨level, sign⟩, hsign⟩ := Option.isSome_iff_exists.mp hwritten
      obtain ⟨ls, left', hrenders, hplaced⟩ := ihleft level (position + 1)
      obtain ⟨rs, right', hrenders', hplaced'⟩ :=
        ihright level.tighter (position + 1 + ls.length + 1)
      -- Parentheses make room for the operator in any place.
      refine ⟨_, .binary operator left' right', .parens hnone hnone
        (.binary hsign (Nat.zero_le _) hnone hnone hrenders hrenders'), ?_⟩
      simp only [unplaced, hplaced, hplaced']

/-- An expressible tree can be written as a text, and whatever text it is written as, with blanks
and parentheses to taste, it is read back with every reference at its place. -/
theorem text_round_trip {tree : Tree} (htree : tree.Expressible) :
    (∃ text placed, WrittenAs text placed ∧ placed.unplaced = tree.unplaced) ∧
      ∀ text placed, WrittenAs text placed → placed.unplaced = tree.unplaced →
        Tree.ofText text = .ok placed ∧ ∀ r ∈ placed.references, r.StandsIn 0 text.toList := by
  refine ⟨?_, fun text placed hwritten hplaced => ⟨ofText_of_writtenAs hwritten, fun r hr => ?_⟩⟩
  · obtain ⟨cs, placed, hrenders, hplaced⟩ := htree.exists_renders .sum 0
    have hnone : AreBlanks [] := List.forall_mem_nil _
    exact ⟨String.ofList cs, placed, ⟨[], cs, [], hnone, hnone, by simp, hrenders⟩, hplaced⟩
  · obtain ⟨before, cs, after, -, -, htext, hrenders⟩ := hwritten
    exact (hrenders.standsIn hr).between before after (Nat.zero_add _).symm htext

def restOfSeven : Tree :=
  .binary .minus (.number (.int 7)) (.binary .divide (.binary .times
    (.reference ⟨.steps, "tax.amount", some 5⟩) (.negate (.reference ⟨.intake, "a", some 23⟩)))
    (.number (.int 2)))

theorem restOfSeven_reads_back :
    restOfSeven.Expressible ∧ WrittenAs "7 - (steps.tax.amount*-intake.a)/ 2" restOfSeven ∧
      Tree.ofText "7 - (steps.tax.amount*-intake.a)/ 2" = .ok restOfSeven := by
  have hstep : IsName "tax".toList := ⟨by decide, by simp [isNameChar]⟩
  have houtput : IsName "amount".toList := ⟨by decide, by simp [isNameChar]⟩
  have hamount : Scope.Spells .steps "tax.amount".toList := .steps hstep houtput
  have ha : Scope.Spells .intake "a".toList := .intake ⟨by decide, by simp [isNameChar]⟩
  have hdigit (n : Nat) (hn : n < 10) : n < 10 ^ Text.integerDigitLimit :=
    lt_of_lt_of_le hn (Nat.le_self_pow (by decide) 10)
  have hexpressible : restOfSeven.Expressible :=
    .binary rfl (.number (hdigit 7 (by decide))) (.binary rfl (.binary rfl (.reference hamount)
      (.negate (.reference ha))) (.number (hdigit 2 (by decide))))
  have htimes : Operator.times.written? = some (.product, '*') := rfl
  have hdivide : Operator.divide.written? = some (.product, '/') := rfl
  have hminus : Operator.minus.written? = some (.sum, '-') := rfl
  have hnone : AreBlanks [] := List.forall_mem_nil _
  have hblank : AreBlanks [' '] := List.forall_mem_singleton.mpr (by decide)
  have hproduct : Renders .sum 5 "steps.tax.amount*-intake.a".toList (.binary .times
      (.reference ⟨.steps, "tax.amount", some 5⟩)
      (.negate (.reference ⟨.intake, "a", some 23⟩))) :=
    .binary htimes (by decide) hnone hnone (.reference hamount)
      (.negate hnone (.reference ha))
  have hrenders : Renders .sum 0 "7 - (steps.tax.amount*-intake.a)/ 2".toList restOfSeven :=
    .binary hminus (by decide) hblank hblank (.of_lt (hdigit 7 (by decide)) _ _)
      (.binary hdivide (by decide) hnone hblank (.parens hnone hnone hproduct)
        (.of_lt (hdigit 2 (by decide)) _ _))
  have hwritten : WrittenAs "7 - (steps.tax.amount*-intake.a)/ 2" restOfSeven :=
    ⟨[], _, [], hnone, hnone, by simp, hrenders⟩
  exact ⟨hexpressible, hwritten, ((text_round_trip hexpressible).2 _ _ hwritten rfl).1⟩

end ModelPlaybook.Expression
