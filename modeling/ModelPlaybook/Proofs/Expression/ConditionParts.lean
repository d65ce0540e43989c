import Mathlib
import ModelPlaybook.Proofs.Expression.ConditionGrammar
import ModelPlaybook.Proofs.Expression.Overflow
import ModelPlaybook.Proofs.Expression.Rendering
import ModelPlaybook.Proofs.Value.Signaling

/-!
# The parts of a condition

What stands on either side of the comparator of a condition is an expression.  Conditions and
expressions are read by different rules: a minus sign belongs to the number in a condition and is an
operation in an expression, and a condition takes a field as it is where an expression asks for a
finite number.  As long as the fields hold finite numbers, a condition compares the values of the
two expressions.
-/

namespace ModelPlaybook.Expression

/-! ## Texts of one token row -/

theorem Tree.ofText_of_scan {text : String} {ts : List Token} {last : Token} {tree : Tree}
    (hscan : scan .arithmetic text = ⟨ts ++ [last], none⟩) (hlast : last.lexeme = .ending)
    (hsome : ts ≠ []) (hwrites : Writes .sum ts tree) : Tree.ofText text = .ok tree := by
  have htokens := tokens_eq_ok_iff.mpr ⟨congrArg Scan.fault? hscan, congrArg Scan.tokens hscan⟩
  have hsolid : Text.isAllBlank text = false := by
    by_contra hblank
    have hblanks : AreBlanks text.toList := by
      simpa [Text.isAllBlank, AreBlanks] using hblank
    have hnone : scan .arithmetic text = ⟨[⟨.ending, text.toList.length⟩], none⟩ := by
      have hskip : scanFrom .arithmetic text 0 (text.toList ++ []) =
          scanFrom .arithmetic text (0 + text.toList.length) [] := scanFrom_blanks hblanks []
      rw [List.append_nil, Nat.zero_add] at hskip
      rw [scan, hskip, scanFrom]
    have hlength := congrArg (fun s => s.tokens.length) (hnone.symm.trans hscan)
    simp at hlength
    exact hsome hlength
  rw [Tree.ofText, hsolid, htokens]
  exact Tree.ofTokens_of_writes hwrites hlast

/-! ## Words -/

theorem not_foundAt_of_letter {dialect : Dialect} {position extra : Nat} {c : Char}
    {rest : List Char} {lexeme : Lexeme} (hc : c = 't' ∨ c = 'f') :
    ¬ FoundAt dialect position c rest lexeme extra := by
  have hstarts : startsNumber c rest = false := by
    rcases hc with rfl | rfl <;> rfl
  have hopened : openedScope? (c :: rest) = none := by
    rcases hc with rfl | rfl <;> rfl
  have hsingle : Lexeme.ofSingle? c = none := by
    rcases hc with rfl | rfl <;> rfl
  have hcomparator : comparatorAt? (c :: rest) = none := by
    rcases hc with rfl | rfl <;> rfl
  intro hfound
  cases hfound with
  | number hnumber hvalue => simp [hstarts] at hnumber
  | field hnumber hscope hname => simp [hopened] at hscope
  | single hnumber hscope hoperator => simp [hsingle] at hoperator
  | comparator hdialect hnumber hscope hoperator hfound => simp [hcomparator] at hfound

/-- The words for truth values are no conditions. -/
theorem Condition.trim_ne_of_ofText {text : String} {c : Condition} (hread : ofText text = .ok c) :
    Text.trim text ≠ "true" ∧ Text.trim text ≠ "false" := by
  suffices hword : ∀ d ds, (d = 't' ∨ d = 'f') → (Text.trim text).toList ≠ d :: ds by
    constructor
    · intro htrim
      exact hword 't' _ (.inl rfl) (congrArg String.toList htrim)
    · intro htrim
      exact hword 'f' _ (.inr rfl) (congrArg String.toList htrim)
  intro d ds hd htrim
  -- The word starts behind the blanks at the front.
  have hprefix : Text.trimChars text.toList <+: text.toList.dropWhile Text.isBlank := by
    rw [Text.trimChars, Text.trimRightChars, ← List.reverse_suffix, List.reverse_reverse]
    exact List.dropWhile_suffix _
  obtain ⟨behind, hbehind⟩ := hprefix
  rw [Text.trim, String.toList_ofList] at htrim
  rw [htrim, List.cons_append] at hbehind
  have htext : text.toList = text.toList.takeWhile Text.isBlank ++ d :: (ds ++ behind) := by
    rw [hbehind, List.takeWhile_append_dropWhile]
  have hblanks : ∀ c ∈ text.toList.takeWhile Text.isBlank, Text.isBlank c = true :=
    fun c hc => List.mem_takeWhile_imp hc
  obtain ⟨ts, hts, -⟩ := Condition.ofText_eq_ok_iff.mp hread
  obtain ⟨hfault, -⟩ := tokens_eq_ok_iff.mp hts
  rw [scan, htext, scanFrom_blanks hblanks] at hfault
  cases hlexeme : lexemeAt .condition text
      (0 + (text.toList.takeWhile Text.isBlank).length) d (ds ++ behind) with
  | ok found => exact not_foundAt_of_letter hd (lexemeAt_eq_ok_iff.mp hlexeme)
  | error fault =>
      have hd' : ¬ Text.isBlank d = true := by
        rcases hd with rfl | rfl <;> decide
      rw [scanFrom_of_fault hd' hlexeme] at hfault
      cases hfault

theorem holds_of_ofText {text : String} {c : Condition} (hread : Condition.ofText text = .ok c)
    (env : Environment) : holds env (.text text) = c.evaluate env := by
  obtain ⟨htrue, hfalse⟩ := Condition.trim_ne_of_ofText hread
  simp only [holds, if_neg htrue, if_neg hfalse, hread]

/-! ## Operands as expressions -/

section

variable {operand : Operand} {us : List Token} {offset : Nat}

theorem Operand.WrittenBy.ne_nil {ts : List Token} (hwritten : operand.WrittenBy ts) : ts ≠ [] := by
  cases hwritten <;> simp

/-- Tokens of an operand write an expression, wherever they stand, that has the number for its value
that the operand has. -/
theorem Operand.WrittenBy.exists_tree
    (hwritten : operand.WrittenBy (us.map (Token.moved offset))) :
    ∃ tree, Writes .factor us tree ∧ ∀ env x, x.isFinite = true →
      operand.value env = .ok x.toValue → tree.evaluate env = .ok x := by
  generalize hts : us.map (Token.moved offset) = ts at hwritten
  cases hwritten with
  | number ht =>
      obtain ⟨t, rfl, rfl⟩ := List.map_eq_singleton_iff.mp hts
      refine ⟨_, .number ht, fun env x hfinite hvalue => ?_⟩
      rw [Number.toValue_injective (Except.ok.inj hvalue)]
      rfl
  | @negative t' u' value ht hu =>
      obtain ⟨t, us, rfl, rfl, hus⟩ := List.map_eq_cons_iff.mp hts
      obtain ⟨u, rfl, rfl⟩ := List.map_eq_singleton_iff.mp hus
      refine ⟨_, .negate ht (.number hu), fun env x hfinite hvalue => ?_⟩
      rw [← Number.toValue_injective (Except.ok.inj hvalue)]
      cases value <;> rfl
  | @reference t' scope name ht =>
      obtain ⟨t, rfl, rfl⟩ := List.map_eq_singleton_iff.mp hts
      refine ⟨_, .reference ht, fun env x hfinite hvalue => ?_⟩
      have hlookup : env.lookup? ⟨scope, name, some t.position⟩ = some x.toValue := by
        simp only [Operand.value, Environment.lookup] at hvalue
        split at hvalue
        next v hv =>
          cases hvalue
          exact hv
        · cases hvalue
      exact (evaluate_reference_eq_ok hlookup).mpr ⟨hfinite, rfl⟩

/-- An operand of a text is a finite number, if what it refers to is one. -/
theorem Operand.WrittenBy.exists_value {dialect : Dialect} {text : String} {ts used : List Token}
    {env : Environment} (hwritten : operand.WrittenBy used) (hts : tokens dialect text = .ok ts)
    (hused : used ⊆ ts)
    (henv : ∀ r, operand = .reference r →
      ∃ x : Number, x.isFinite = true ∧ env.lookup? r = some x.toValue) :
    ∃ x : Number, x.isFinite = true ∧ operand.value env = .ok x.toValue := by
  cases hwritten with
  | @number t value ht =>
      exact ⟨value.toNumber, isFinite_of_mem_tokens hts (hused List.mem_cons_self) ht, rfl⟩
  | @negative t u value ht hu =>
      have hfinite := isFinite_of_mem_tokens hts (hused (by simp)) hu
      refine ⟨value.negated, ?_, rfl⟩
      cases value with
      | int n => rfl
      | float x => exact (Binary64.isFinite_neg x).trans hfinite
  | reference ht =>
      obtain ⟨x, hfinite, hlookup⟩ := henv _ rfl
      refine ⟨x, hfinite, ?_⟩
      simp only [Operand.value, Environment.lookup, hlookup]

end

/-! ## Finite numbers -/

theorem numeric?_toValue {x : Number} (hx : x.isFinite = true) : numeric? x.toValue = some x :=
  (Option.filter_eq_some_iff.mp (finiteNumber?_toValue hx)).1

/-- Finite numbers can be compared. -/
theorem exists_compareStrictly_eq_ok (k : Comparator) {x y : Number} (hx : x.isFinite = true)
    (hy : y.isFinite = true) : ∃ b, compareStrictly k x.toValue y.toValue = .ok b := by
  obtain ⟨hxSignal, hxNaN⟩ := Number.notNaN_of_isFinite hx
  obtain ⟨hySignal, hyNaN⟩ := Number.notNaN_of_isFinite hy
  cases hholds : x.holds k y with
  | ok b =>
      refine ⟨b, ?_⟩
      simp only [compareStrictly, numeric?_toValue hx, numeric?_toValue hy, hholds]
      rfl
  | error s =>
      rw [Number.holds_eq_error_iff hxSignal hySignal] at hholds
      simp [hxNaN, hyNaN] at hholds

/-! ## Texts of conditions -/

/-- A comparator takes up just its symbol. -/
theorem FoundAt.comparator_eq {dialect : Dialect} {position extra : Nat} {c : Char}
    {rest : List Char} {k : Comparator}
    (hfound : FoundAt dialect position c rest (.comparator k) extra) :
    c :: rest = k.symbol.toList ++ rest.drop extra ∧ k.symbol.length = 1 + extra := by
  cases hfound with
  | single hstarts hopened hsingle =>
      unfold Lexeme.ofSingle? at hsingle
      split at hsingle <;> cases hsingle
  | comparator hdialect hstarts hopened hsingle hcomparator =>
      have hsymbol : k.symbol.toList <+: c :: rest := starts_of_comparatorAt? hcomparator
      obtain ⟨behind, hbehind⟩ := hsymbol
      have hlength : k.symbol.length = 1 + (k.symbol.length - 1) := by
        cases k <;> rfl
      have hdrop : (c :: rest).drop k.symbol.length = rest.drop (k.symbol.length - 1) := by
        rw [hlength, Nat.add_comm, List.drop_succ_cons]
        rfl
      refine ⟨?_, hlength⟩
      rw [← hdrop, ← hbehind, ← String.length_toList, List.drop_left]

/-- A comparator that a scan finds divides the text into two texts with the tokens on its sides. -/
theorem exists_texts_of_comparator {text : String} {k : Comparator} {t : Token} {ls rs : List Token}
    (ht : t.lexeme = .comparator k) (hscan : scan .condition text = ⟨ls ++ t :: rs, none⟩) :
    ∃ left right us offset, text = left ++ k.symbol ++ right ∧ t.position = left.length ∧
      scan .condition left = ⟨ls ++ [⟨.ending, t.position⟩], none⟩ ∧
      scan .condition right = ⟨us, none⟩ ∧ rs = us.map (Token.moved offset) := by
  obtain ⟨front, d, rest, extra, htext, hplace, hfound, hfront, hwhole⟩ :=
    exists_parts_of_scanFrom (by simp [ht]) ls (congrArg Scan.tokens hscan)
  rw [ht] at hfound
  obtain ⟨hsymbol, -⟩ := hfound.comparator_eq
  rw [Nat.zero_add] at hplace
  -- The scan of the text goes on behind the comparator, where the right side starts.
  have hrest :
      scanFrom .condition text (t.position + 1 + extra) (rest.drop extra) = ⟨rs, none⟩ := by
    have hall := hwhole.symm.trans hscan
    simp only [Scan.after, Scan.mk.injEq, List.append_assoc, List.singleton_append] at hall
    obtain ⟨htokens, hfault⟩ := hall
    have hbehind := (List.cons.inj (List.append_cancel_left htokens)).2
    rw [← hbehind, ← hfault]
  have hshift := @scanFrom_moved .condition text 0 (rest.drop extra) (t.position + 1 + extra)
    (String.ofList (rest.drop extra))
  rw [Nat.add_zero, hrest] at hshift
  obtain ⟨hmoved, hfault⟩ := hshift
  refine ⟨String.ofList front, String.ofList (rest.drop extra),
    (scan .condition (String.ofList (rest.drop extra))).tokens, t.position + 1 + extra,
    ?_, ?_, ?_, ?_, ?_⟩
  · rw [← String.toList_inj, htext, hsymbol]
    simp
  · rw [hplace, String.length_ofList]
  · rw [scan, String.toList_ofList]
    exact hfront _
  · rw [scan, String.toList_ofList, ← hfault.mp rfl]
  · rw [scan, String.toList_ofList]
    exact hmoved

theorem Token.moved_zero : Token.moved 0 = id := by
  funext t
  simp [Token.moved]

/-- Without comparators, the tokens of a condition are those of an expression. -/
theorem scan_arithmetic {text : String} {ts : List Token} {last : Token}
    (hscan : scan .condition text = ⟨ts ++ [last], none⟩)
    (hts : ∀ t ∈ ts, ∀ k, t.lexeme ≠ .comparator k) (hlast : last.lexeme = .ending) :
    scan .arithmetic text = ⟨ts ++ [last], none⟩ := by
  have hnone : ∀ t ∈ (scan .condition text).tokens, ∀ k, t.lexeme ≠ .comparator k := by
    rw [hscan]
    exact List.forall_mem_append.mpr ⟨hts, List.forall_mem_singleton.mpr (by simp [hlast])⟩
  have hfault : (scan .condition text).fault? = none := by rw [hscan]
  rw [← hscan]
  exact scanFrom_arithmetic hfault hnone text

/-- A text is the comparator of a condition between two other texts, where the scan finds it. -/
structure Condition.Divides (c : Condition) (text left right : String) : Prop where
  whole : text = left ++ c.comparator.symbol ++ right
  found : ∃ ts, tokens .condition text = .ok ts ∧
    (⟨.comparator c.comparator, left.length⟩ : Token) ∈ ts

/-- A text writes an expression that has the number for its value that an operand has. -/
def Operand.IsSide (operand : Operand) (text : String) : Prop :=
  ∃ tree, Tree.ofText text = .ok tree ∧ ∀ env x, x.isFinite = true →
    operand.value env = .ok x.toValue → tree.evaluate env = .ok x

theorem Operand.WrittenBy.isSide {operand : Operand} {text : String} {us : List Token}
    {last : Token} {offset : Nat} (hwritten : operand.WrittenBy (us.map (Token.moved offset)))
    (hscan : scan .condition text = ⟨us ++ [last], none⟩) (hlast : last.lexeme = .ending) :
    operand.IsSide text := by
  have hnone : ∀ t ∈ us, ∀ k, t.lexeme ≠ .comparator k := fun t ht =>
    (hwritten.kind (List.mem_map_of_mem ht)).2
  have hsome : us ≠ [] := by
    have hne := hwritten.ne_nil
    simpa using hne
  obtain ⟨tree, hwrites, hvalue⟩ := hwritten.exists_tree
  have hread := Tree.ofText_of_scan (scan_arithmetic hscan hnone hlast) hlast hsome
    (.ofProduct (.ofFactor hwrites))
  exact ⟨tree, hread, hvalue⟩

/-- The parts of a text before and behind the comparator are the sides of the condition. -/
theorem Condition.exists_sides {text : String} {c : Condition} (hread : ofText text = .ok c) :
    ∃ left right, c.Divides text left right ∧ c.left.IsSide left ∧ c.right.IsSide right := by
  obtain ⟨ts, hts, hwritten⟩ := ofText_eq_ok_iff.mp hread
  obtain ⟨hfault, htokens⟩ := tokens_eq_ok_iff.mp hts
  cases hwritten with
  | @comparison left right k t last ls rs hleft ht hright hlast =>
      have hscan : scan .condition text = ⟨ls ++ t :: (rs ++ [last]), none⟩ := by
        rw [← htokens, ← hfault]
      obtain ⟨before, behind, us, offset, htext, hplace, hbefore, hbehind, hmoved⟩ :=
        exists_texts_of_comparator ht hscan
      obtain ⟨us, ends, rfl, rfl, hends⟩ := List.map_eq_append_iff.mp hmoved.symm
      obtain ⟨last, rfl, rfl⟩ := List.map_eq_singleton_iff.mp hends
      have hcomparator : t = ⟨.comparator k, before.length⟩ := by
        rw [← ht, ← hplace]
      refine ⟨before, behind, ⟨htext, _, hts, by simp [hcomparator]⟩, ?_, ?_⟩
      · rw [← List.map_id ls, ← Token.moved_zero] at hleft
        exact hleft.isSide hbefore rfl
      · exact hright.isSide hbehind hlast

/-- The operands of a condition are finite numbers, if the fields that they refer to are. -/
theorem Condition.exists_values {text : String} {c : Condition} {env : Environment}
    (hread : ofText text = .ok c)
    (henv : ∀ r ∈ c.references, ∃ x : Number, x.isFinite = true ∧ env.lookup? r = some x.toValue) :
    ∃ x y : Number, x.isFinite = true ∧ c.left.value env = .ok x.toValue ∧
      y.isFinite = true ∧ c.right.value env = .ok y.toValue := by
  obtain ⟨ts, hts, hwritten⟩ := ofText_eq_ok_iff.mp hread
  cases hwritten with
  | comparison hleft ht hright hlast =>
      obtain ⟨x, hx, hleftValue⟩ := hleft.exists_value hts (List.subset_append_left _ _)
        fun r hr => henv r (mem_references.mpr (.inl hr))
      obtain ⟨y, hy, hrightValue⟩ := hright.exists_value hts
        (fun t ht => by simp [ht]) fun r hr => henv r (mem_references.mpr (.inr hr))
      exact ⟨x, y, hx, hleftValue, hy, hrightValue⟩

/-- A text is a condition just if its tokens are an operand, a comparator, an operand and the
ending, and reading any other text stops at one of its tokens or where no token fits.  The texts on
the two sides of the comparator are expressions, and wherever the fields of a condition are finite
numbers, the condition holds just if the comparison of the two values does. -/
theorem conditions_compare_expressions (text : String) :
    (∀ c, Condition.ofText text = .ok c ↔
      ∃ ts, tokens .condition text = .ok ts ∧ c.WrittenBy ts) ∧
    (∀ fault, Condition.ofText text = .error fault → fault ≠ .exhausted) ∧
    ∀ c, Condition.ofText text = .ok c →
      ∃ left right, c.Divides text left right ∧
        (∃ tree, Tree.ofText left = .ok tree) ∧ (∃ tree, Tree.ofText right = .ok tree) ∧
        ∀ env : Environment,
          (∀ r ∈ c.references, ∃ x : Number, x.isFinite = true ∧ env.lookup? r = some x.toValue) →
          ∃ x y b, evaluate env (.text left) = .ok x ∧ evaluate env (.text right) = .ok y ∧
            compareStrictly c.comparator x.toValue y.toValue = .ok b ∧
            holds env (.text text) = .ok b := by
  refine ⟨fun c => Condition.ofText_eq_ok_iff, fun fault hread => ?_, fun c hread => ?_⟩
  · rcases Condition.exists_of_ofText_error hread with ⟨-, hfault⟩ | ⟨ts, -, t, -, rfl⟩
    · exact hfault
    · simp
  · obtain ⟨left, right, hdivides, hleft, hright⟩ := Condition.exists_sides hread
    obtain ⟨leftTree, hleftRead, hleftValue⟩ := hleft
    obtain ⟨rightTree, hrightRead, hrightValue⟩ := hright
    refine ⟨left, right, hdivides, ⟨leftTree, hleftRead⟩, ⟨rightTree, hrightRead⟩, ?_⟩
    intro env henv
    obtain ⟨x, y, hx, hleft, hy, hright⟩ := Condition.exists_values hread henv
    obtain ⟨b, hb⟩ := exists_compareStrictly_eq_ok c.comparator hx hy
    refine ⟨x, y, b, ?_, ?_, hb, ?_⟩
    · rw [evaluate_text, hleftRead]
      exact hleftValue env x hx hleft
    · rw [evaluate_text, hrightRead]
      exact hrightValue env y hy hright
    · rw [holds_of_ofText hread]
      exact bind_eq_ok.mpr ⟨_, hleft, bind_eq_ok.mpr ⟨_, hright, hb⟩⟩

def rated : Environment where
  intake := [(.text "rate", .int 5)]
  outputs := []

theorem rate_compared :
    ∃ left right x y b, "intake.rate >= -3" = left ++ ">=" ++ right ∧
      evaluate rated (.text left) = .ok x ∧ evaluate rated (.text right) = .ok y ∧
      compareStrictly .atLeast x.toValue y.toValue = .ok b ∧
      holds rated (.text "intake.rate >= -3") = .ok b := by
  have hread : Condition.ofText "intake.rate >= -3" =
      .ok ⟨.reference ⟨.intake, "rate", some 0⟩, .atLeast, .number (.int (-3))⟩ := by cbv
  obtain ⟨left, right, hdivides, -, -, hcompare⟩ :=
    (conditions_compare_expressions "intake.rate >= -3").2.2 _ hread
  have hfields : ∀ r ∈ [(⟨.intake, "rate", some 0⟩ : Reference)],
      ∃ x : Number, x.isFinite = true ∧ rated.lookup? r = some x.toValue :=
    List.forall_mem_singleton.mpr ⟨.int 5, rfl, rfl⟩
  obtain ⟨x, y, b, hleft, hright, hb, hholds⟩ := hcompare rated hfields
  exact ⟨left, right, x, y, b, hdivides.whole, hleft, hright, hb, hholds⟩

end ModelPlaybook.Expression
