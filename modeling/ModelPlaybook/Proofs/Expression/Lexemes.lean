import Mathlib
import ModelPlaybook.Proofs.Expression.Rendering
import ModelPlaybook.Proofs.Expression.Slicing
import ModelPlaybook.Proofs.Number.Numerals

/-!
# Lexemes

Every token of a text stands for the characters at its position, and only blanks stand between them
and the next token.  No other characters of the text write a longer token there; and where the scan
stops, no characters write a token at all.
-/

namespace ModelPlaybook.Expression

/-! ## What a token can be written by -/

/-- A run of digits and at most one point that reads as a number: as a whole number without a point,
as a finite double with one. -/
inductive Literal.WrittenBy : Literal → List Char → Prop where
  | int {n : Nat} {run : List Char} (hpoint : '.' ∉ run)
      (hread : WholeText.read 10 (String.ofList run) = .ok n) : WrittenBy (.int n) run
  | float {x : Binary64} {run : List Char} (hpoint : run.count '.' = 1)
      (hread : Binary64.ofText? (String.ofList run) = some x) (hfinite : x.isFinite = true) :
      WrittenBy (.float x) run

/-- The lexemes that a text can start with.  A number takes the whole run of digits and points. -/
inductive Lexeme.Heads (dialect : Dialect) (cs : List Char) : Lexeme → List Char → Prop where
  | number {value : Literal} (hvalue : value.WrittenBy (cs.takeWhile isNumberChar)) :
      Heads dialect cs (.number value) (cs.takeWhile isNumberChar)
  | field {scope : Scope} {name : List Char} (hname : scope.Spells name)
      (hstarts : scope.opening.toList ++ name <+: cs) :
      Heads dialect cs (.field scope (String.ofList name)) (scope.opening.toList ++ name)
  | symbol {l : Lexeme} (hl : l ∈ [.plus, .minus, .star, .slash, .leftParen, .rightParen])
      (hstarts : l.text.toList <+: cs) : Heads dialect cs l l.text.toList
  | comparator {k : Comparator} (hdialect : dialect = .condition)
      (hstarts : k.symbol.toList <+: cs) : Heads dialect cs (.comparator k) k.symbol.toList

/-! ## Numbers -/

section

variable {position : Nat} {run : List Char} {value : Literal}

theorem not_writtenBy_nil (value : Literal) : ¬ value.WrittenBy [] := by
  intro hwritten
  cases hwritten with
  | int hpoint hread => cases hread
  | float hpoint hread hfinite => cases hpoint

theorem Literal.ofChars_of_point (hone : run.count '.' = 1)
    (hrun : ∀ c ∈ run, isNumberChar c = true) :
    Literal.ofChars position run = .ok value ↔
      ∃ x, Binary64.ofText? (String.ofList run) = some x ∧ x.isFinite = true ∧
        value = .float x := by
  have hcontains : run.contains '.' = true := by
    have hmem : '.' ∈ run := List.count_pos_iff.mp (by omega)
    simpa using hmem
  rw [Literal.ofChars, if_neg (by omega), if_pos hcontains, ofText?_of_numberChars hrun]
  cases DecimalLiteral.ofChars? false run with
  | none =>
      constructor
      · intro hvalue
        cases hvalue
      · rintro ⟨x, hread, -, -⟩
        cases hread
  | some l =>
      constructor
      · intro hvalue
        by_cases hfinite : l.toBinary64.isFinite = true
        · simp only [if_pos hfinite] at hvalue
          cases hvalue
          exact ⟨_, rfl, hfinite, rfl⟩
        · simp only [if_neg hfinite] at hvalue
          cases hvalue
      · rintro ⟨x, hread, hfinite, rfl⟩
        cases hread
        exact if_pos hfinite

theorem Literal.writtenBy_of_digits (hsome : run ≠ [])
    (hdigits : ∀ c ∈ run, Text.isAsciiDigit c = true) :
    Literal.ofChars position run = .ok value ↔ value.WrittenBy run := by
  have hpoint : '.' ∉ run := fun hmem => absurd (hdigits '.' hmem) (by decide)
  have hread := read_of_digits hsome hdigits
  rw [Literal.ofChars_of_digits hdigits]
  by_cases hlimit : Text.integerDigitLimit < run.length
  · rw [if_pos hlimit] at hread ⊢
    constructor
    · intro hvalue
      cases hvalue
    · intro hwritten
      cases hwritten with
      | int hnone hvalue =>
          rw [hread] at hvalue
          cases hvalue
      | float hone hvalue hfinite =>
          rw [List.count_eq_zero_of_not_mem hpoint] at hone
          cases hone
  · rw [if_neg hlimit] at hread ⊢
    constructor
    · intro hvalue
      cases hvalue
      exact .int hpoint hread
    · intro hwritten
      cases hwritten with
      | int hnone hvalue =>
          rw [hread, Except.ok.injEq, Int.natCast_inj] at hvalue
          rw [hvalue]
      | float hone hvalue hfinite =>
          rw [List.count_eq_zero_of_not_mem hpoint] at hone
          cases hone

/-- A run of digits and points is a literal just if it reads as a number. -/
theorem Literal.ofChars_eq_ok_iff (hsome : run ≠ []) (hrun : ∀ c ∈ run, isNumberChar c = true) :
    Literal.ofChars position run = .ok value ↔ value.WrittenBy run := by
  by_cases hpoint : '.' ∈ run
  · have hpos := List.count_pos_iff.mpr hpoint
    by_cases hone : run.count '.' = 1
    · rw [Literal.ofChars_of_point hone hrun]
      constructor
      · rintro ⟨x, hread, hfinite, rfl⟩
        exact .float hone hread hfinite
      · intro hwritten
        cases hwritten with
        | int hnone hread => exact absurd hpoint hnone
        | float hone hread hfinite => exact ⟨_, hread, hfinite, rfl⟩
    · have hsecond : 1 < run.count '.' := by omega
      rw [Literal.ofChars, if_pos hsecond]
      constructor
      · intro hvalue
        cases hvalue
      · intro hwritten
        cases hwritten with
        | int hnone hread => exact absurd hpoint hnone
        | float hone' hread hfinite => exact absurd hone' hone
  · have hdigits : ∀ c ∈ run, Text.isAsciiDigit c = true := by
      intro c hc
      rcases Bool.or_eq_true_iff.mp (hrun c hc) with hdigit | hdot
      · exact hdigit
      · exact absurd (of_decide_eq_true hdot ▸ hc) hpoint
    exact Literal.writtenBy_of_digits hsome hdigits

end

/-- A point alone is no number, and no number has two points. -/
theorem startsNumber_of_writtenBy {value : Literal} {c : Char} {rest : List Char}
    (hvalue : value.WrittenBy ((c :: rest).takeWhile isNumberChar)) :
    startsNumber c rest = true := by
  have hpointAlone : Binary64.ofText? (String.ofList ['.']) = none := by cbv
  by_cases hc : isNumberChar c = true
  · rw [List.takeWhile_cons_of_pos hc] at hvalue
    by_cases hdigit : Text.isAsciiDigit c = true
    · simp [startsNumber, hdigit]
    · obtain rfl : c = '.' := by simpa [isNumberChar, hdigit] using hc
      cases hvalue with
      | int hpoint hread => exact absurd List.mem_cons_self hpoint
      | float hpoint hread hfinite =>
          have hnone : (rest.takeWhile isNumberChar).count '.' = 0 := by simpa using hpoint
          cases rest with
          | nil =>
              rw [List.takeWhile_nil, hpointAlone] at hread
              cases hread
          | cons d rest =>
              by_cases hd : isNumberChar d = true
              · rw [List.takeWhile_cons_of_pos hd, List.count_eq_zero] at hnone
                have hother : d ≠ '.' := fun hdot => hnone (by simp [hdot])
                have hdigit : Text.isAsciiDigit d = true := by simpa [isNumberChar, hother] using hd
                simp [startsNumber, hdigit]
              · rw [List.takeWhile_cons_of_neg hd, hpointAlone] at hread
                cases hread
  · rw [List.takeWhile_cons_of_neg hc] at hvalue
    exact absurd hvalue (not_writtenBy_nil value)

/-! ## The longest lexeme -/

theorem length_le_of_find? {α : Type} {p : α → Bool} {size : α → Nat} {xs : List α} {x y : α}
    (hsorted : xs.Pairwise fun a b => size b ≤ size a) (hfound : xs.find? p = some x)
    (hy : y ∈ xs) (hpy : p y = true) : size y ≤ size x := by
  obtain ⟨-, before, behind, rfl, hbefore⟩ := List.find?_eq_some_iff_append.mp hfound
  have hbehind := (List.pairwise_append.mp hsorted).2.1
  rcases List.mem_append.mp hy with hy | hy
  · have hnot := hbefore y hy
    simp [hpy] at hnot
  · rcases List.mem_cons.mp hy with rfl | hy
    · exact Nat.le_refl _
    · exact List.rel_of_pairwise_cons hbehind hy

theorem longer_first :
    Comparator.all.Pairwise fun j k => k.symbol.length ≤ j.symbol.length := by
  decide

theorem mem_all (k : Comparator) : k ∈ Comparator.all := by
  cases k <;> decide

theorem exists_comparatorAt? {k : Comparator} {cs : List Char} (hstarts : k.symbol.toList <+: cs) :
    ∃ j, comparatorAt? cs = some j ∧ k.symbol.length ≤ j.symbol.length := by
  have hk : k.symbol.toList.isPrefixOf cs = true := List.isPrefixOf_iff_prefix.mpr hstarts
  cases hfound : comparatorAt? cs with
  | none =>
      have hnone := List.find?_eq_none.mp hfound k (mem_all k)
      exact absurd hk hnone
  | some j =>
      have hle := length_le_of_find? longer_first hfound (mem_all k) hk
      exact ⟨j, rfl, hle⟩

namespace Lexeme.Heads

variable {dialect : Dialect} {c : Char} {cs rest lexeme : List Char} {l : Lexeme}

theorem exists_name {scope : Scope} {name : String}
    (hheads : (Lexeme.field scope name).Heads dialect cs lexeme) :
    ∃ chars, scope.Spells chars ∧ lexeme = scope.opening.toList ++ chars ∧
      name = String.ofList chars := by
  cases hheads with
  | @field _ chars hname hstarts => exact ⟨chars, hname, rfl, rfl⟩
  | symbol hl hstarts => simp at hl

/-- Where a text starts with a lexeme, the scan finds one that is no shorter. -/
theorem exists_foundAt (hheads : l.Heads dialect (c :: rest) lexeme) (position : Nat) :
    ∃ l' extra, FoundAt dialect position c rest l' extra ∧ lexeme.length ≤ extra + 1 := by
  cases hheads with
  | @number value hvalue =>
      have hstarts := startsNumber_of_writtenBy hvalue
      have hsome : (c :: rest).takeWhile isNumberChar ≠ [] := by
        intro hnil
        rw [hnil] at hvalue
        exact not_writtenBy_nil value hvalue
      have hrun : ∀ d ∈ (c :: rest).takeWhile isNumberChar, isNumberChar d = true :=
        fun d hd => List.mem_takeWhile_imp hd
      refine ⟨_, _, .number hstarts ((Literal.ofChars_eq_ok_iff hsome hrun).mpr hvalue), ?_⟩
      omega
  | @field scope name hname hstarts =>
      obtain ⟨behind, hbehind⟩ := hstarts
      rw [List.append_assoc] at hbehind
      have hopened : openedScope? (c :: rest) = some scope := by
        rw [← hbehind]
        exact openedScope?_append hname _
      have hletter : startsNumber c rest = false := by
        cases hname <;> cases hbehind <;> rfl
      have hrest : rest.drop (scope.opening.length - 1) = name ++ behind := by
        cases hname <;> cases hbehind <;> rfl
      have hfield : fieldName scope position scope.segments (name ++ behind) =
          .ok (name ++ behind.takeWhile isNameChar) := fieldName_append hname behind
      rw [← hrest] at hfield
      refine ⟨_, _, .field hletter hopened hfield, ?_⟩
      rw [List.length_append, List.length_append, String.length_toList]
      omega
  | symbol hl hstarts =>
      have hsingle : Lexeme.ofSingle? c = some l ∧ l.text.toList.length = 1 := by
        simp only [List.mem_cons, List.not_mem_nil, or_false] at hl
        obtain ⟨behind, hbehind⟩ := hstarts
        rcases hl with rfl | rfl | rfl | rfl | rfl | rfl <;> cases hbehind <;> exact ⟨rfl, rfl⟩
      refine ⟨_, _, foundAt_single hsingle.1 rest, ?_⟩
      omega
  | @comparator k hdialect hstarts =>
      obtain ⟨j, hj, hle⟩ := exists_comparatorAt? hstarts
      have hother : startsNumber c rest = false ∧ openedScope? (c :: rest) = none ∧
          Lexeme.ofSingle? c = none := by
        obtain ⟨behind, hbehind⟩ := hstarts
        cases k <;> cases hbehind <;> exact ⟨rfl, rfl, rfl⟩
      refine ⟨_, _, .comparator hdialect hother.1 hother.2.1 hother.2.2 hj, ?_⟩
      rw [String.length_toList]
      omega

end Lexeme.Heads

namespace FoundAt

variable {dialect : Dialect} {position extra : Nat} {c : Char} {rest : List Char} {l : Lexeme}

theorem unique {l' : Lexeme} {extra' : Nat} (hfound : FoundAt dialect position c rest l extra)
    (hfound' : FoundAt dialect position c rest l' extra') : l = l' ∧ extra = extra' := by
  have hlexeme : lexemeAt dialect "" position c rest = .ok (l, extra) :=
    lexemeAt_eq_ok_iff.mpr hfound
  have hlexeme' : lexemeAt dialect "" position c rest = .ok (l', extra') :=
    lexemeAt_eq_ok_iff.mpr hfound'
  rw [hlexeme] at hlexeme'
  simpa using hlexeme'

/-- What is found is written by the characters that it takes. -/
theorem heads (hfound : FoundAt dialect position c rest l extra) :
    l.Heads dialect (c :: rest) ((c :: rest).take (extra + 1)) := by
  have htakes : ∀ {lexeme : List Char}, l.Heads dialect (c :: rest) lexeme →
      lexeme <+: c :: rest → lexeme.length = extra + 1 →
      l.Heads dialect (c :: rest) ((c :: rest).take (extra + 1)) := by
    intro lexeme hheads hprefix hlength
    rw [← hlength, ← List.prefix_iff_eq_take.mp hprefix]
    exact hheads
  cases hfound with
  | @number value hstarts hvalue =>
      have hrun : ∀ d ∈ (c :: rest).takeWhile isNumberChar, isNumberChar d = true :=
        fun d hd => List.mem_takeWhile_imp hd
      have hc : isNumberChar c = true := by
        rw [startsNumber, Bool.or_eq_true] at hstarts
        rcases hstarts with hdigit | hpoint
        · simp [isNumberChar, hdigit]
        · simp [isNumberChar, (Bool.and_eq_true_iff.mp hpoint).1]
      have hsome : (c :: rest).takeWhile isNumberChar ≠ [] := by
        rw [List.takeWhile_cons_of_pos hc]
        exact List.cons_ne_nil _ _
      have hlength := List.length_pos_iff.mpr hsome
      have hwritten := (Literal.ofChars_eq_ok_iff hsome hrun).mp hvalue
      exact htakes (.number hwritten) (List.takeWhile_prefix _) (by omega)
  | @field scope name hstarts hopened hname =>
      obtain ⟨hspells, behind, hbehind⟩ :=
        spells_of_fieldName (List.mem_of_find?_eq_some hopened) hname
      obtain ⟨d, opening, hopening⟩ : ∃ d opening, scope.opening.toList = d :: opening := by
        cases hspells <;> exact ⟨_, _, rfl⟩
      have hlength : scope.opening.length = opening.length + 1 := by
        rw [← String.length_toList, hopening, List.length_cons]
      have hprefix : scope.opening.toList ++ name <+: c :: rest := by
        obtain ⟨after, hafter⟩ := starts_of_openedScope? hopened
        rw [hopening, List.cons_append] at hafter
        obtain ⟨rfl, rfl⟩ := List.cons.inj hafter
        rw [hlength, Nat.add_sub_cancel, List.drop_left] at hbehind
        exact ⟨behind, by rw [hopening, hbehind]; simp⟩
      refine htakes (.field hspells hprefix) hprefix ?_
      rw [List.length_append, String.length_toList]
      omega
  | single hstarts hopened hsingle =>
      have hsymbol : l ∈ [Lexeme.plus, .minus, .star, .slash, .leftParen, .rightParen] ∧
          l.text.toList = [c] := by
        unfold Lexeme.ofSingle? at hsingle
        split at hsingle <;> cases hsingle <;> exact ⟨by decide, rfl⟩
      have hprefix : l.text.toList <+: c :: rest := ⟨rest, by rw [hsymbol.2]; rfl⟩
      refine htakes (.symbol hsymbol.1 hprefix) hprefix ?_
      rw [hsymbol.2, List.length_singleton]
  | @comparator k hdialect hstarts hopened hsingle hcomparator =>
      have hprefix := starts_of_comparatorAt? hcomparator
      have hpos : 0 < k.symbol.length := by
        cases k <;> decide
      refine htakes (.comparator hdialect hprefix) hprefix ?_
      rw [String.length_toList]
      omega

/-- No other lexeme that stands there is longer. -/
theorem length_le (hfound : FoundAt dialect position c rest l extra) {other : Lexeme}
    {lexeme : List Char} (hother : other.Heads dialect (c :: rest) lexeme) :
    lexeme.length ≤ extra + 1 := by
  obtain ⟨l', extra', hfound', hle⟩ := hother.exists_foundAt position
  have hsame := (hfound.unique hfound').2
  omega

end FoundAt

/-! ## Texts in pieces -/

/-- The characters of a text from one position up to another. -/
def charsBetween (cs : List Char) (start stop : Nat) : List Char :=
  (cs.take stop).drop start

theorem charsBetween_append {cs : List Char} {i j k : Nat} (hij : i ≤ j) (hjk : j ≤ k) :
    charsBetween cs i k = charsBetween cs i j ++ charsBetween cs j k := by
  have hfront : cs.take j = (cs.take k).take j := by rw [List.take_take, Nat.min_eq_left hjk]
  have hsplit : (cs.take k).take j ++ (cs.take k).drop j = cs.take k :=
    List.take_append_drop j _
  rw [charsBetween, charsBetween, charsBetween, hfront]
  by_cases hlength : i ≤ ((cs.take k).take j).length
  · rw [← List.drop_append_of_le_length hlength, hsplit]
  · have hall : (cs.take k).length ≤ i := by
      rw [List.length_take] at hlength
      omega
    rw [List.drop_eq_nil_of_le hall, List.drop_eq_nil_of_le (hall.trans hij),
      List.drop_eq_nil_of_le (by omega), List.append_nil]

theorem charsBetween_of_drop {cs rest : List Char} {c : Char} {start : Nat}
    (hdrop : cs.drop start = c :: rest) (extra : Nat) :
    charsBetween cs start (start + 1 + extra) = (c :: rest).take (extra + 1) := by
  rw [charsBetween, ← hdrop, List.drop_take]
  congr 1
  omega

/-- The characters from a token up to a later position are a lexeme of the token, as long as a
lexeme can be there, and blanks behind it. -/
def Token.Covers (dialect : Dialect) (cs : List Char) (t : Token) (stop : Nat) : Prop :=
  ∃ lexeme blanks, charsBetween cs t.position stop = lexeme ++ blanks ∧ AreBlanks blanks ∧
    t.lexeme.Heads dialect (cs.drop t.position) lexeme ∧
    ∀ (l : Lexeme) (other : List Char), l.Heads dialect (cs.drop t.position) other →
      other.length ≤ lexeme.length

/-- Tokens cut a text from a position on into pieces, without a rest. -/
structure CutFrom (dialect : Dialect) (cs : List Char) (start : Nat) (ts : List Token) : Prop where
  ending : ts.getLast? = some ⟨.ending, cs.length⟩
  increasing : ts.Pairwise fun t u => t.position < u.position
  front : ∀ t ∈ ts.head?, start ≤ t.position ∧ AreBlanks (charsBetween cs start t.position)
  between : ts.IsChain fun t u => t.Covers dialect cs u.position

namespace CutFrom

variable {dialect : Dialect} {cs rest : List Char} {start extra : Nat} {c : Char} {l : Lexeme}
  {ts : List Token}

theorem nil : CutFrom dialect cs cs.length [⟨.ending, cs.length⟩] := by
  refine ⟨rfl, List.pairwise_singleton _ _, ?_, List.isChain_singleton _⟩
  rintro t ⟨⟩
  refine ⟨Nat.le_refl _, ?_⟩
  simp [charsBetween, AreBlanks]

theorem blank (hdrop : cs.drop start = c :: rest) (hc : Text.isBlank c = true)
    (hcut : CutFrom dialect cs (start + 1) ts) : CutFrom dialect cs start ts := by
  refine ⟨hcut.ending, hcut.increasing, fun t ht => ?_, hcut.between⟩
  obtain ⟨hle, hblanks⟩ := hcut.front t ht
  refine ⟨by omega, ?_⟩
  have hone : charsBetween cs start (start + 1) = [c] := charsBetween_of_drop hdrop 0
  rw [charsBetween_append (Nat.le_succ start) hle, hone]
  exact List.forall_mem_cons.mpr ⟨hc, hblanks⟩

theorem le_of_mem (hcut : CutFrom dialect cs start ts) {t : Token} (ht : t ∈ ts) :
    start ≤ t.position := by
  cases ts with
  | nil => cases ht
  | cons u ts =>
      have hfront := (hcut.front u rfl).1
      rcases List.mem_cons.mp ht with rfl | ht
      · exact hfront
      · have hlater := List.rel_of_pairwise_cons hcut.increasing ht
        omega

theorem token (hdrop : cs.drop start = c :: rest)
    (hfound : FoundAt dialect start c rest l extra)
    (hcut : CutFrom dialect cs (start + 1 + extra) ts) :
    CutFrom dialect cs start (⟨l, start⟩ :: ts) := by
  have hsome : ts ≠ [] := by
    rintro rfl
    cases hcut.ending
  refine ⟨?_, ?_, ?_, ?_⟩
  · rw [List.getLast?_cons_of_ne_nil hsome]
    exact hcut.ending
  · refine List.pairwise_cons.mpr ⟨fun t ht => ?_, hcut.increasing⟩
    have hle := hcut.le_of_mem ht
    simp only
    omega
  · rintro t ⟨⟩
    simp [charsBetween, AreBlanks]
  · obtain ⟨u, us, rfl⟩ := List.exists_cons_of_ne_nil hsome
    obtain ⟨hle, hblanks⟩ := hcut.front u rfl
    refine List.isChain_cons_cons.mpr ⟨?_, hcut.between⟩
    refine ⟨(c :: rest).take (extra + 1), _, ?_, hblanks, ?_, ?_⟩
    · rw [← charsBetween_of_drop hdrop, ← charsBetween_append (by omega) hle]
    · rw [hdrop]
      exact hfound.heads
    · intro other lexeme hother
      rw [hdrop] at hother
      have hlongest := hfound.length_le hother
      have hwithin := hfound.extra_le
      rw [List.length_take, List.length_cons]
      omega

theorem position_le_of_mem (hcut : CutFrom dialect cs start ts) {t : Token} (ht : t ∈ ts) :
    t.position ≤ cs.length := by
  obtain ⟨body, rfl⟩ := List.getLast?_eq_some_iff.mp hcut.ending
  rcases List.mem_append.mp ht with ht | ht
  · have hbefore := (List.pairwise_append.mp hcut.increasing).2.2 t ht _ (List.mem_singleton_self _)
    exact Nat.le_of_lt hbefore
  · rw [List.mem_singleton.mp ht]

/-- A token that has a text without blanks at the ends for itself is written by all of it. -/
theorem heads_of_pair {t u : Token} (hcut : CutFrom dialect cs 0 [t, u])
    (hfirst : ∀ c ∈ cs.head?, Text.isBlank c = false)
    (hlast : ∀ c ∈ cs.getLast?, Text.isBlank c = false) : t.lexeme.Heads dialect cs cs := by
  have hstart : t.position = 0 := by
    obtain ⟨-, hblanks⟩ := hcut.front t rfl
    have hle := hcut.position_le_of_mem (List.mem_cons_self (a := t))
    by_contra hlater
    cases cs with
    | nil => exact hlater (Nat.le_zero.mp hle)
    | cons c cs =>
        obtain ⟨n, hn⟩ := Nat.exists_eq_succ_of_ne_zero hlater
        have hc : Text.isBlank c = true := hblanks c (by simp [charsBetween, hn])
        rw [hfirst c rfl] at hc
        cases hc
  have hending : u = ⟨.ending, cs.length⟩ := by simpa using hcut.ending
  obtain ⟨lexeme, blanks, hwhole, hblanks, hheads, -⟩ := List.isChain_pair.mp hcut.between
  rw [hstart, hending, charsBetween, List.take_length, List.drop_zero] at hwhole
  rw [hstart, List.drop_zero] at hheads
  have hnone : blanks = [] := by
    by_contra hsome
    have hc := hlast (blanks.getLast hsome)
    rw [hwhole, List.getLast?_append_of_ne_nil _ hsome, List.getLast?_eq_some_getLast hsome] at hc
    rw [hblanks _ (List.getLast_mem hsome)] at hc
    cases hc rfl
  rw [hnone, List.append_nil] at hwhole
  rw [← hwhole] at hheads
  exact hheads

/-- Every token but the ending has its lexeme where it stands. -/
theorem ending_or_heads (hcut : CutFrom dialect cs start ts) {t : Token} (ht : t ∈ ts) :
    t = ⟨.ending, cs.length⟩ ∨ ∃ lexeme, t.lexeme.Heads dialect (cs.drop t.position) lexeme := by
  obtain ⟨front, back, rfl⟩ := List.append_of_mem ht
  cases back with
  | nil => exact .inl (by simpa using hcut.ending)
  | cons u back =>
      have hchain := (List.isChain_append.mp hcut.between).2.1
      obtain ⟨lexeme, blanks, -, -, hheads, -⟩ := (List.isChain_cons_cons.mp hchain).1
      exact .inr ⟨lexeme, hheads⟩

end CutFrom

section

variable {dialect : Dialect} {text : String} {position : Nat} {whole cs : List Char}

/-- A scan that goes through cuts what it scans. -/
theorem cutFrom_of_scanFrom (hdrop : whole.drop position = cs) (hposition : position ≤ whole.length)
    (hfault : (scanFrom dialect text position cs).fault? = none) :
    CutFrom dialect whole position (scanFrom dialect text position cs).tokens := by
  fun_induction scanFrom dialect text position cs with
  | case1 position =>
      have hlength : whole.length = position := by
        have hle := List.drop_eq_nil_iff.mp hdrop
        omega
      rw [← hlength]
      exact .nil
  | case2 position c rest hblank ih =>
      have hdrop' : whole.drop (position + 1) = rest := drop_behind hdrop 0
      have hposition' : position < whole.length := by
        by_contra hle
        rw [List.drop_eq_nil_of_le (by omega)] at hdrop
        cases hdrop
      exact .blank hdrop hblank (ih hdrop' hposition' hfault)
  | case3 position c rest hblank fault hlexeme => cases hfault
  | case4 position c rest hblank lexeme extra hlexeme later ih =>
      have hfound := lexemeAt_eq_ok_iff.mp hlexeme
      have hdrop' : whole.drop (position + 1 + extra) = rest.drop extra := drop_behind hdrop extra
      have hposition' : position + 1 + extra ≤ whole.length := by
        have hlength := congrArg List.length hdrop
        have hextra := hfound.extra_le
        rw [List.length_drop, List.length_cons] at hlength
        omega
      exact .token hdrop hfound (ih hdrop' hposition' hfault)

theorem cutFrom_of_tokens {ts : List Token} (hts : tokens dialect text = .ok ts) :
    CutFrom dialect text.toList 0 ts := by
  obtain ⟨hfault, rfl⟩ := tokens_eq_ok_iff.mp hts
  exact cutFrom_of_scanFrom rfl (Nat.zero_le _) hfault

end

/-- Tokens that are found cut the whole text into lexemes and blanks.  Otherwise there is a place
within the text, the one that the fault complains about, where a lexeme is missing. -/
theorem tokens_cut_or_stop (dialect : Dialect) (text : String) :
    (∃ ts, tokens dialect text = .ok ts ∧ CutFrom dialect text.toList 0 ts) ∨
      ∃ fault p c rest, tokens dialect text = .error fault ∧ fault.position? = some p ∧
        text.toList.drop p = c :: rest ∧ Text.isBlank c = false ∧
        ∀ (l : Lexeme) (lexeme : List Char), ¬ l.Heads dialect (c :: rest) lexeme := by
  cases htokens : tokens dialect text with
  | ok ts => exact .inl ⟨ts, rfl, cutFrom_of_tokens htokens⟩
  | error fault =>
      obtain ⟨p, c, rest, hdrop, hc, hlexeme⟩ :=
        exists_stop_of_scanFrom (List.drop_zero) (tokens_eq_error htokens)
      have hnone : ∀ (l : Lexeme) (lexeme : List Char), ¬ l.Heads dialect (c :: rest) lexeme := by
        intro l lexeme hheads
        obtain ⟨l', extra, hfound, -⟩ := hheads.exists_foundAt p
        rw [lexemeAt_eq_ok_iff.mpr hfound] at hlexeme
        cases hlexeme
      exact .inr ⟨fault, p, c, rest, rfl, position?_of_lexemeAt hlexeme, hdrop, hc, hnone⟩

end ModelPlaybook.Expression
