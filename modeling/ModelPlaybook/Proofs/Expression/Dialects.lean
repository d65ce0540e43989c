import Mathlib
import ModelPlaybook.Proofs.Expression.Lexemes

/-!
# The two dialects

Arithmetic knows no comparators, and this is all that tells the dialects apart: a scan of arithmetic
is the scan of the same text as a condition, cut off in front of the first comparator.  Where a
comparator is found, no longer one stands at its place.
-/

namespace ModelPlaybook.Expression

def Lexeme.isComparator : Lexeme → Bool
  | comparator _ => true
  | _ => false

theorem Lexeme.isComparator_eq_true_iff {l : Lexeme} :
    l.isComparator = true ↔ ∃ k, l = .comparator k := by
  cases l <;> simp [isComparator]

/-- A scan cut off in front of its first comparator, the first character of which is then a
character that fits nowhere. -/
def Scan.upToComparator (text : String) (s : Scan) : Scan :=
  match s.tokens.find? (·.lexeme.isComparator) with
  | none => s
  | some t =>
    ⟨s.tokens.takeWhile (!·.lexeme.isComparator),
      some (.unexpectedCharacter t.lexeme.text.front t.position text)⟩

theorem Scan.upToComparator_of_none (text : String) {s : Scan}
    (hnone : s.tokens.find? (·.lexeme.isComparator) = none) : s.upToComparator text = s := by
  simp [upToComparator, hnone]

theorem Scan.fault?_upToComparator (text : String) {s : Scan} {t : Token}
    (hfirst : s.tokens.find? (·.lexeme.isComparator) = some t) :
    (s.upToComparator text).fault? =
      some (.unexpectedCharacter t.lexeme.text.front t.position text) := by
  simp only [upToComparator, hfirst]

theorem Scan.upToComparator_after {text : String} {t : Token}
    (ht : t.lexeme.isComparator = false) (s : Scan) :
    (s.after [t]).upToComparator text = (s.upToComparator text).after [t] := by
  cases hfirst : s.tokens.find? (·.lexeme.isComparator) <;>
    simp [upToComparator, after, ht, hfirst]

theorem Scan.upToComparator_after_comparator {text : String} {t : Token}
    (ht : t.lexeme.isComparator = true) (s : Scan) :
    (s.after [t]).upToComparator text =
      ⟨[], some (.unexpectedCharacter t.lexeme.text.front t.position text)⟩ := by
  simp [upToComparator, after, ht]

/-! ## One place of a text -/

section

variable {text : String} {position extra : Nat} {c : Char} {rest : List Char}

theorem FoundAt.comparatorAt?_eq {dialect : Dialect} {k : Comparator}
    (hfound : FoundAt dialect position c rest (.comparator k) extra) :
    startsNumber c rest = false ∧ openedScope? (c :: rest) = none ∧
      Lexeme.ofSingle? c = none ∧ comparatorAt? (c :: rest) = some k := by
  cases hfound with
  | single hstarts hopened hsingle =>
      unfold Lexeme.ofSingle? at hsingle
      split at hsingle <;> cases hsingle
  | comparator hdialect hstarts hopened hsingle hcomparator =>
      exact ⟨hstarts, hopened, hsingle, hcomparator⟩

/-- Where a condition has a comparator, arithmetic stops at its first character. -/
theorem lexemeAt_arithmetic_of_comparator {k : Comparator}
    (hlexeme : lexemeAt .condition text position c rest = .ok (.comparator k, extra)) :
    lexemeAt .arithmetic text position c rest =
      .error (.unexpectedCharacter k.symbol.front position text) := by
  obtain ⟨hstarts, hopened, hsingle, hcomparator⟩ :=
    (lexemeAt_eq_ok_iff.mp hlexeme).comparatorAt?_eq
  have hfront : k.symbol.front = c := by
    obtain ⟨behind, hbehind⟩ := starts_of_comparatorAt? hcomparator
    cases k <;> cases hbehind <;> rfl
  rw [hfront]
  simp [lexemeAt, hstarts, hopened, hsingle]

/-- Where a condition stops, arithmetic stops for the same reason. -/
theorem lexemeAt_arithmetic_of_fault {fault : SyntaxFault}
    (hfault : lexemeAt .condition text position c rest = .error fault) :
    lexemeAt .arithmetic text position c rest = .error fault := by
  unfold lexemeAt at hfault ⊢
  split at hfault
  next hstarts =>
    rw [if_pos hstarts]
    exact hfault
  next hstarts =>
    rw [if_neg hstarts]
    cases hopened : openedScope? (c :: rest) with
    | some scope =>
        simp only [hopened] at hfault ⊢
        exact hfault
    | none =>
        simp only [hopened] at hfault ⊢
        cases hsingle : Lexeme.ofSingle? c with
        | some l => simp [hsingle] at hfault
        | none =>
            cases hcomparator : comparatorAt? (c :: rest) with
            | some k => simp [hsingle, hcomparator] at hfault
            | none => simpa [hsingle, hcomparator] using hfault

end

/-! ## Whole texts -/

/-- A scan of arithmetic goes along with the scan of a condition up to the first comparator. -/
theorem scanFrom_arithmetic_eq (text : String) (position : Nat) (cs : List Char) :
    scanFrom .arithmetic text position cs =
      (scanFrom .condition text position cs).upToComparator text := by
  -- The induction is on the scan of the condition, which takes at each place what arithmetic
  -- takes, unless it is a comparator.
  fun_induction scanFrom .condition text position cs with
  | case1 position => simp [scanFrom, Scan.upToComparator, Lexeme.isComparator]
  | case2 position c rest hblank ih =>
      rw [scanFrom, if_pos hblank]
      exact ih
  | case3 position c rest hblank fault hlexeme =>
      rw [scanFrom_of_fault hblank (lexemeAt_arithmetic_of_fault hlexeme)]
      rfl
  | case4 position c rest hblank lexeme extra hlexeme later ih =>
      have hafter : (⟨⟨lexeme, position⟩ :: later.tokens, later.fault?⟩ : Scan) =
          later.after [⟨lexeme, position⟩] := rfl
      rw [hafter]
      by_cases hcomparator : lexeme.isComparator = true
      · obtain ⟨k, rfl⟩ := Lexeme.isComparator_eq_true_iff.mp hcomparator
        rw [scanFrom_of_fault hblank (lexemeAt_arithmetic_of_comparator hlexeme),
          Scan.upToComparator_after_comparator hcomparator]
        rfl
      · have hother : ∀ k, lexeme ≠ .comparator k := by
          intro k hk
          exact hcomparator (Lexeme.isComparator_eq_true_iff.mpr ⟨k, hk⟩)
        have hfound := (lexemeAt_eq_ok_iff.mp hlexeme).arithmetic hother
        rw [scanFrom_of_foundAt (by simpa using hblank) hfound, ih,
          Scan.upToComparator_after (by simpa using hcomparator)]

theorem scan_arithmetic_eq (text : String) :
    scan .arithmetic text = (scan .condition text).upToComparator text :=
  scanFrom_arithmetic_eq text 0 text.toList

/-- A comparator that stands at the start of a text, where no longer one stands. -/
def IsLongestComparator (k : Comparator) (cs : List Char) : Prop :=
  k.symbol.toList <+: cs ∧
    ∀ j : Comparator, j.symbol.toList <+: cs → j.symbol.length ≤ k.symbol.length

theorem isLongestComparator_of_comparatorAt? {k : Comparator} {cs : List Char}
    (hcomparator : comparatorAt? cs = some k) : IsLongestComparator k cs := by
  refine ⟨starts_of_comparatorAt? hcomparator, fun j hj => ?_⟩
  obtain ⟨found, hfound, hle⟩ := exists_comparatorAt? hj
  rw [hcomparator] at hfound
  cases hfound
  exact hle

theorem isLongestComparator_of_mem_scan {dialect : Dialect} {text : String} {t : Token}
    {k : Comparator} (ht : t ∈ (scan dialect text).tokens) (hk : t.lexeme = .comparator k) :
    IsLongestComparator k (text.toList.drop t.position) := by
  obtain ⟨before, behind, hparts⟩ := List.append_of_mem ht
  have hending : t.lexeme ≠ .ending := by simp [hk]
  obtain ⟨front, c, rest, extra, htext, hplace, hfound, -, -⟩ :=
    exists_parts_of_scanFrom hending before hparts
  have hdrop : text.toList.drop t.position = c :: rest := by
    rw [htext, hplace, Nat.zero_add, List.drop_left]
  rw [hk] at hfound
  rw [hdrop]
  exact isLongestComparator_of_comparatorAt? hfound.comparatorAt?_eq.2.2.2

/-- How the two dialects go together on a text. -/
structure DialectsAgree (text : String) : Prop where
  /-- What arithmetic can read, a condition reads in the same way. -/
  of_arithmetic : ∀ ts, tokens .arithmetic text = .ok ts → tokens .condition text = .ok ts
  /-- What a condition reads without a comparator, arithmetic reads in the same way. -/
  of_condition : ∀ ts, tokens .condition text = .ok ts →
    (∀ t ∈ ts, t.lexeme.isComparator = false) → tokens .arithmetic text = .ok ts
  /-- Arithmetic complains about the first comparator of a condition. -/
  at_comparator : ∀ before t behind, tokens .condition text = .ok (before ++ t :: behind) →
    (∀ u ∈ before, u.lexeme.isComparator = false) → t.lexeme.isComparator = true →
    ∃ fault, tokens .arithmetic text = .error fault ∧ fault.position? = some t.position
  /-- Comparators are as long as they can be, also in a text that cannot be read to its end. -/
  longest : ∀ t ∈ (scan .condition text).tokens, ∀ k, t.lexeme = .comparator k →
    IsLongestComparator k (text.toList.drop t.position)

theorem dialects_agree (text : String) : DialectsAgree text := by
  have hscan := scan_arithmetic_eq text
  constructor
  case of_arithmetic =>
    intro ts hts
    obtain ⟨hfault, htokens⟩ := tokens_eq_ok_iff.mp hts
    cases hfirst : (scan .condition text).tokens.find? (·.lexeme.isComparator) with
    | none =>
        rw [hscan, Scan.upToComparator_of_none text hfirst] at hfault htokens
        exact tokens_eq_ok_iff.mpr ⟨hfault, htokens⟩
    | some t =>
        rw [hscan, Scan.fault?_upToComparator text hfirst] at hfault
        cases hfault
  case of_condition =>
    intro ts hts hnone
    obtain ⟨hfault, htokens⟩ := tokens_eq_ok_iff.mp hts
    have hfirst : (scan .condition text).tokens.find? (·.lexeme.isComparator) = none := by
      simpa [htokens] using hnone
    rw [← Scan.upToComparator_of_none text hfirst, ← hscan] at hfault htokens
    exact tokens_eq_ok_iff.mpr ⟨hfault, htokens⟩
  case at_comparator =>
    intro before t behind hts hbefore ht
    obtain ⟨-, htokens⟩ := tokens_eq_ok_iff.mp hts
    have hfirst : (scan .condition text).tokens.find? (·.lexeme.isComparator) = some t := by
      have hnone : before.find? (·.lexeme.isComparator) = none := by simpa using hbefore
      simp [htokens, hnone, ht]
    have hfault := Scan.fault?_upToComparator text hfirst
    rw [← hscan] at hfault
    refine ⟨.unexpectedCharacter t.lexeme.text.front t.position text, ?_, rfl⟩
    simp only [tokens, hfault]
  case longest =>
    intro t ht k hk
    exact isLongestComparator_of_mem_scan ht hk

end ModelPlaybook.Expression
