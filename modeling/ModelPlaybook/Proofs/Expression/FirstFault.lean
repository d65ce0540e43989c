import ModelPlaybook.Proofs.Expression.Lexemes
import ModelPlaybook.Proofs.Expression.Sentence

/-!
# The first token that cannot be

Where tokens are not read, the fault complains about the first token that no sentence has behind the
tokens before it.  For a text, this token stands where the fault says.
-/

namespace ModelPlaybook.Expression

/-- A sentence starts with these tokens. -/
def Begins (ts : List Token) : Prop :=
  ∃ back tree, Sentence .sum (ts ++ back) tree

/-- The tokens before `t` begin a sentence, but not with `t` behind them.  An ending stands there
only if they are no sentence by themselves. -/
def FirstImpossible (ts : List Token) (t : Token) : Prop :=
  ∃ before behind, ts = before ++ t :: behind ∧ Begins before ∧ ¬ Begins (before ++ [t]) ∧
    (t.lexeme = .ending → ∀ tree, ¬ Sentence .sum before tree)

theorem SyntaxFault.Blames.position? {fault : SyntaxFault} {t : Token} (hblames : fault.Blames t) :
    fault.position? = some t.position := by
  rcases hblames with rfl | rfl | rfl <;> rfl

/-- No sentence starts with tokens that fail whatever stands behind them. -/
theorem not_begins_of_fails {front : List Token} {fault : SyntaxFault}
    (hfails : ∀ behind, Tree.ofTokens (front ++ behind) = .error fault) : ¬ Begins front := by
  rintro ⟨back, tree, hsentence⟩
  have hread : Tree.ofTokens (front ++ back ++ [⟨.ending, 0⟩]) = .ok tree :=
    Tree.ofTokens_of_writes hsentence.writes rfl
  rw [List.append_assoc, hfails] at hread
  cases hread

theorem exists_firstImpossible {ts : List Token} {fault : SyntaxFault} (hended : Ended ts)
    (hread : Tree.ofTokens ts = .error fault) :
    ∃ t ∈ ts, FirstImpossible ts t ∧ fault.position? = some t.position := by
  obtain ⟨before, t, behind, rfl, hblames, ⟨back, tree, hwrites⟩, hfails⟩ :=
    Tree.stuck_of_ofTokens hended hread
  have hstops : ∀ rest, Tree.ofTokens (before ++ [t] ++ rest) = .error fault := by
    intro rest
    rw [List.append_assoc, List.singleton_append]
    exact hfails rest
  have hnone : ¬ Begins (before ++ [t]) := not_begins_of_fails hstops
  have hincomplete : t.lexeme = .ending → ∀ tree, ¬ Sentence .sum before tree := by
    intro ht tree hsentence
    have hcomplete : Tree.ofTokens (before ++ [t]) = .ok tree :=
      Tree.ofTokens_of_writes hsentence.writes ht
    rw [hfails] at hcomplete
    cases hcomplete
  have hbegins : Begins before := ⟨back, tree, hwrites.sentence⟩
  exact ⟨t, by simp, ⟨before, behind, rfl, hbegins, hnone, hincomplete⟩, hblames.position?⟩

/-- Tokens with one ending, at their end, fail at the first of them that is impossible.  In a text
that is not blank this token stands within the text, at the place that the fault complains about. -/
theorem faults_at_first_impossible :
    (∀ body last fault, (∀ t ∈ body, t.lexeme ≠ .ending) → last.lexeme = .ending →
      Tree.ofTokens (body ++ [last]) = .error fault →
      ∃ t, FirstImpossible (body ++ [last]) t ∧ fault.position? = some t.position) ∧
    ∀ text ts fault, Text.isAllBlank text = false → tokens .arithmetic text = .ok ts →
      Tree.ofText text = .error fault →
      ∃ t, FirstImpossible ts t ∧ fault.position? = some t.position ∧ t.position ≤ text.length ∧
        (t = ⟨.ending, text.length⟩ ∨
          ∃ lexeme, t.lexeme.Heads .arithmetic (text.toList.drop t.position) lexeme) := by
  constructor
  · intro body last fault hbody hlast hread
    obtain ⟨t, -, hfirst, hposition⟩ := exists_firstImpossible ⟨body, last, rfl, hlast⟩ hread
    exact ⟨t, hfirst, hposition⟩
  · intro text ts fault hsolid hts hread
    have htokens : Tree.ofTokens ts = .error fault := by
      rw [Tree.ofText, hsolid, hts] at hread
      exact hread
    have hcut := cutFrom_of_tokens hts
    obtain ⟨hfault, rfl⟩ := tokens_eq_ok_iff.mp hts
    obtain ⟨body, last, hsplit, hlast, -⟩ := exists_ending_of_scanFrom hfault
    obtain ⟨t, ht, hfirst, hposition⟩ := exists_firstImpossible ⟨body, last, hsplit, hlast⟩ htokens
    exact ⟨t, hfirst, hposition, hcut.position_le_of_mem ht, hcut.ending_or_heads ht⟩

/-- In `(1 + * 2` it is the star: a factor may stand there, and behind it the parenthesis closes. -/
theorem star_first_impossible :
    ∃ ts fault, Text.isAllBlank "(1 + * 2" = false ∧ tokens .arithmetic "(1 + * 2" = .ok ts ∧
      Tree.ofText "(1 + * 2" = .error fault ∧ fault.position? = some 5 ∧
      ∃ t, FirstImpossible ts t ∧ fault.position? = some t.position := by
  have hsolid : Text.isAllBlank "(1 + * 2" = false := by cbv
  have hts : tokens .arithmetic "(1 + * 2" = .ok [⟨.leftParen, 0⟩, ⟨.number (.int 1), 1⟩,
      ⟨.plus, 3⟩, ⟨.star, 5⟩, ⟨.number (.int 2), 7⟩, ⟨.ending, 8⟩] := by cbv
  have hread : Tree.ofText "(1 + * 2" = .error (.unexpectedToken ⟨.star, 5⟩) := by
    rw [Tree.ofText, hsolid, hts]
    cbv
  obtain ⟨t, hfirst, hposition, -⟩ := faults_at_first_impossible.2 _ _ _ hsolid hts hread
  exact ⟨_, _, hsolid, hts, hread, rfl, t, hfirst, hposition⟩

end ModelPlaybook.Expression
