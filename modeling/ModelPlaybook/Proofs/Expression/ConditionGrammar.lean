import ModelPlaybook.Proofs.Expression.Reader
import ModelPlaybook.Proofs.Expression.Reference
import ModelPlaybook.Proofs.Expression.Slicing

/-!
# The grammar of conditions

A condition is an operand, a comparator and an operand, where an operand is a number, a number
behind a minus sign, or a reference.  The reader accepts just the texts whose tokens are of this
form.  It never looks behind the ending: every fault is one of the scan, or complains about a token.
-/

namespace ModelPlaybook.Expression

/-- Tokens write an operand. -/
inductive Operand.WrittenBy : Operand → List Token → Prop where
  | number {t : Token} {value : Literal} (ht : t.lexeme = .number value) :
      WrittenBy (.number value.toNumber) [t]
  | negative {t u : Token} {value : Literal} (ht : t.lexeme = .minus)
      (hu : u.lexeme = .number value) : WrittenBy (.number value.negated) [t, u]
  | reference {t : Token} {scope : Scope} {name : String} (ht : t.lexeme = .field scope name) :
      WrittenBy (.reference ⟨scope, name, some t.position⟩) [t]

/-- Tokens write a condition: two operands with a comparator between them, and an ending. -/
inductive Condition.WrittenBy : Condition → List Token → Prop where
  | comparison {left right : Operand} {k : Comparator} {t last : Token} {ls rs : List Token}
      (hleft : left.WrittenBy ls) (ht : t.lexeme = .comparator k) (hright : right.WrittenBy rs)
      (hlast : last.lexeme = .ending) : WrittenBy ⟨left, k, right⟩ (ls ++ t :: (rs ++ [last]))

/-! ## Operands -/

section

variable {text : String} {operand : Operand} {ts rest : List Token}

theorem Operand.WrittenBy.kind (hwritten : operand.WrittenBy ts) {t : Token} (ht : t ∈ ts) :
    t.lexeme ≠ .ending ∧ ∀ k, t.lexeme ≠ .comparator k := by
  cases hwritten with
  | number hu | reference hu =>
      obtain rfl := List.mem_singleton.mp ht
      simp [hu]
  | negative hu hv =>
      rcases List.mem_pair.mp ht with rfl | rfl
      · simp [hu]
      · simp [hv]

theorem Operand.ofTokens_of_writtenBy (hwritten : operand.WrittenBy ts) (rest : List Token) :
    Operand.ofTokens text (ts ++ rest) = .ok (operand, rest) := by
  cases hwritten with
  | number ht | reference ht => simp only [ofTokens, List.cons_append, List.nil_append, ht]
  | negative ht hu => simp only [ofTokens, List.cons_append, List.nil_append, ht, hu]

theorem Operand.writtenBy_of_ofTokens (hread : Operand.ofTokens text ts = .ok (operand, rest)) :
    ∃ used, ts = used ++ rest ∧ operand.WrittenBy used := by
  unfold ofTokens at hread
  split at hread
  · cases hread
  next t rest' =>
    split at hread
    next value ht =>
      cases hread
      exact ⟨[t], rfl, .number ht⟩
    next scope name ht =>
      cases hread
      exact ⟨[t], rfl, .reference ht⟩
    next ht =>
      split at hread
      · cases hread
      next u rest'' =>
        split at hread
        next value hu =>
          cases hread
          exact ⟨[t, u], rfl, .negative ht hu⟩
        · cases hread
    · cases hread

theorem Operand.exists_of_ofTokens_error {fault : SyntaxFault} (hended : Ended ts)
    (hread : Operand.ofTokens text ts = .error fault) :
    ∃ t ∈ ts, fault = .unsupportedCondition text t := by
  unfold ofTokens at hread
  split at hread
  · exact absurd rfl hended.ne_nil
  next t rest =>
    split at hread
    · cases hread
    · cases hread
    next ht =>
      have hrest : Ended rest := hended.of_cons (by simp [ht])
      split at hread
      · exact absurd rfl hrest.ne_nil
      next u rest' =>
        split at hread
        · cases hread
        · cases hread
          exact ⟨u, by simp, rfl⟩
    · cases hread
      exact ⟨t, List.mem_cons_self, rfl⟩

end

/-! ## Conditions -/

section

variable {text : String} {c : Condition} {ts : List Token}

theorem Condition.ofTokens_of_writtenBy (hwritten : c.WrittenBy ts) :
    Condition.ofTokens text ts = .ok c := by
  cases hwritten with
  | comparison hleft ht hright hlast =>
      refine bind_eq_ok.mpr ⟨_, Operand.ofTokens_of_writtenBy hleft _, ?_⟩
      simp only [ht]
      refine bind_eq_ok.mpr ⟨_, Operand.ofTokens_of_writtenBy hright _, ?_⟩
      simp [hlast]
      rfl

/-- What is read as a condition is written by the tokens up to an ending. -/
theorem Condition.writtenBy_of_ofTokens (hread : Condition.ofTokens text ts = .ok c) :
    ∃ used rest, ts = used ++ rest ∧ c.WrittenBy used := by
  obtain ⟨⟨left, middle⟩, hleft, hmiddle⟩ := bind_eq_ok.mp hread
  obtain ⟨ls, rfl, hls⟩ := Operand.writtenBy_of_ofTokens hleft
  simp only at hmiddle
  split at hmiddle
  · cases hmiddle
  next t behind =>
    split at hmiddle
    next k ht =>
      obtain ⟨⟨right, rest⟩, hright, hrest⟩ := bind_eq_ok.mp hmiddle
      obtain ⟨rs, rfl, hrs⟩ := Operand.writtenBy_of_ofTokens hright
      simp only at hrest
      split at hrest
      · cases hrest
      next last rest =>
        split at hrest
        next hlast =>
          cases hrest
          exact ⟨ls ++ t :: (rs ++ [last]), rest, by simp, .comparison hls ht hrs hlast⟩
        · cases hrest
    · cases hmiddle

theorem Condition.exists_of_ofTokens_error {fault : SyntaxFault} (hended : Ended ts)
    (hread : Condition.ofTokens text ts = .error fault) :
    ∃ t ∈ ts, fault = .unsupportedCondition text t := by
  rcases bind_eq_error.mp hread with hleft | ⟨⟨left, middle⟩, hleft, hmiddle⟩
  · exact Operand.exists_of_ofTokens_error hended hleft
  · obtain ⟨ls, rfl, hls⟩ := Operand.writtenBy_of_ofTokens hleft
    have hended' : Ended middle := hended.of_append fun t ht => (hls.kind ht).1
    simp only at hmiddle
    split at hmiddle
    · exact absurd rfl hended'.ne_nil
    next t behind =>
      split at hmiddle
      next k ht =>
        have hbehind : Ended behind := hended'.of_cons (by simp [ht])
        rcases bind_eq_error.mp hmiddle with hright | ⟨⟨right, rest⟩, hright, hrest⟩
        · obtain ⟨u, hu, hfault⟩ := Operand.exists_of_ofTokens_error hbehind hright
          exact ⟨u, by simp [hu], hfault⟩
        · obtain ⟨rs, rfl, hrs⟩ := Operand.writtenBy_of_ofTokens hright
          have hended'' : Ended rest := hbehind.of_append fun u hu => (hrs.kind hu).1
          simp only at hrest
          split at hrest
          · exact absurd rfl hended''.ne_nil
          next u rest =>
            split at hrest
            · cases hrest
            · cases hrest
              exact ⟨u, by simp, rfl⟩
      · cases hmiddle
        exact ⟨t, by simp, rfl⟩

/-- Nothing stands behind the ending of a text's tokens. -/
theorem Condition.ofTokens_eq_ok_iff {body : List Token} {last : Token}
    (hbody : ∀ t ∈ body, t.lexeme ≠ .ending) :
    Condition.ofTokens text (body ++ [last]) = .ok c ↔ c.WrittenBy (body ++ [last]) := by
  constructor
  · intro hread
    obtain ⟨used, rest, hsplit, hwritten⟩ := Condition.writtenBy_of_ofTokens hread
    rcases List.eq_nil_or_concat rest with rfl | ⟨front, last', rfl⟩
    · rwa [hsplit, List.append_nil]
    · -- The ending of the condition would be one of the other tokens.
      rw [List.concat_eq_append, ← List.append_assoc] at hsplit
      obtain ⟨rfl, -⟩ := List.append_inj' hsplit rfl
      cases hwritten with
      | comparison hleft ht hright hlast => exact absurd hlast (hbody _ (by simp))
  · exact Condition.ofTokens_of_writtenBy

end

/-! ## Texts -/

namespace Condition

variable {text : String} {c : Condition}

theorem ofText_eq_ok_iff :
    ofText text = .ok c ↔ ∃ ts, tokens .condition text = .ok ts ∧ c.WrittenBy ts := by
  have hended : ∀ {ts}, tokens .condition text = .ok ts →
      (ofTokens text ts = .ok c ↔ c.WrittenBy ts) := by
    intro ts hts
    obtain ⟨hfault, rfl⟩ := tokens_eq_ok_iff.mp hts
    obtain ⟨body, last, hbody, hlast, hnone⟩ := exists_ending_of_scanFrom hfault
    rw [scan, hbody]
    exact ofTokens_eq_ok_iff hnone
  constructor
  · intro hread
    obtain ⟨ts, hts, hc⟩ := bind_eq_ok.mp hread
    exact ⟨ts, hts, (hended hts).mp hc⟩
  · rintro ⟨ts, hts, hwritten⟩
    exact bind_eq_ok.mpr ⟨ts, hts, ofTokens_of_writtenBy hwritten⟩

/-- A text that is no condition has a place that no token fits, or a token that is not expected. -/
theorem exists_of_ofText_error {fault : SyntaxFault} (hread : ofText text = .error fault) :
    tokens .condition text = .error fault ∧ fault ≠ .exhausted ∨
      ∃ ts, tokens .condition text = .ok ts ∧ ∃ t ∈ ts, fault = .unsupportedCondition text t := by
  rcases bind_eq_error.mp hread with htokens | ⟨ts, hts, hfault⟩
  · obtain ⟨p, c, rest, -, -, hlexeme⟩ := exists_stop_of_scanFrom rfl (tokens_eq_error htokens)
    have hposition := position?_of_lexemeAt hlexeme
    refine .inl ⟨htokens, ?_⟩
    rintro rfl
    cases hposition
  · obtain ⟨hscan, htokens⟩ := tokens_eq_ok_iff.mp hts
    obtain ⟨body, last, hbody, hlast, -⟩ := exists_ending_of_scanFrom hscan
    have hended : Ended ts := ⟨body, last, htokens.symm.trans hbody, hlast⟩
    exact .inr ⟨ts, hts, exists_of_ofTokens_error hended hfault⟩

end Condition

end ModelPlaybook.Expression
