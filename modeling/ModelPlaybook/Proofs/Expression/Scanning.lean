import Mathlib.Data.List.TakeWhile
import ModelPlaybook.Expression.Scan
import ModelPlaybook.Proofs.Failing

/-!
# Scanning

What the scan finds at one place of a text: a number, a field reference, an operator or parenthesis,
or a comparator.  Each of them takes as many characters as it can, so a text that goes on with a
character of another kind leaves it as it is.
-/

namespace ModelPlaybook.Expression

section

variable {dialect : Dialect} {text : String} {position : Nat} {c : Char} {rest : List Char}
  {lexeme : Lexeme} {extra : Nat}

/-- What can be found at one place, and how many characters it takes beyond the first one. -/
inductive FoundAt (dialect : Dialect) (position : Nat) (c : Char) (rest : List Char) :
    Lexeme → Nat → Prop where
  | number {value : Literal} (hstarts : startsNumber c rest = true)
      (hvalue : Literal.ofChars position ((c :: rest).takeWhile isNumberChar) = .ok value) :
      FoundAt dialect position c rest (.number value)
        (((c :: rest).takeWhile isNumberChar).length - 1)
  | field {scope : Scope} {name : List Char} (hstarts : startsNumber c rest = false)
      (hopened : openedScope? (c :: rest) = some scope)
      (hname : fieldName scope position scope.segments (rest.drop (scope.opening.length - 1)) =
        .ok name) :
      FoundAt dialect position c rest (.field scope (String.ofList name))
        (scope.opening.length - 1 + name.length)
  | single {l : Lexeme} (hstarts : startsNumber c rest = false)
      (hopened : openedScope? (c :: rest) = none) (hsingle : Lexeme.ofSingle? c = some l) :
      FoundAt dialect position c rest l 0
  | comparator {k : Comparator} (hdialect : dialect = .condition)
      (hstarts : startsNumber c rest = false) (hopened : openedScope? (c :: rest) = none)
      (hsingle : Lexeme.ofSingle? c = none) (hcomparator : comparatorAt? (c :: rest) = some k) :
      FoundAt dialect position c rest (.comparator k) (k.symbol.length - 1)

theorem lexemeAt_eq_ok_iff :
    lexemeAt dialect text position c rest = .ok (lexeme, extra) ↔
      FoundAt dialect position c rest lexeme extra := by
  constructor
  · intro hlexeme
    unfold lexemeAt at hlexeme
    split at hlexeme
    next hstarts =>
      obtain ⟨value, hvalue, hlexeme⟩ := bind_eq_ok.mp hlexeme
      cases hlexeme
      exact .number hstarts hvalue
    next hstarts =>
      have hstarts : startsNumber c rest = false := by simpa using hstarts
      split at hlexeme
      next scope hopened =>
        obtain ⟨name, hname, hlexeme⟩ := bind_eq_ok.mp hlexeme
        cases hlexeme
        exact .field hstarts hopened hname
      next hopened =>
        split at hlexeme
        next l hsingle =>
          cases hlexeme
          exact .single hstarts hopened hsingle
        next hsingle =>
          split at hlexeme
          next k hcomparator =>
            cases hlexeme
            split at hcomparator
            next hdialect => exact .comparator hdialect hstarts hopened hsingle hcomparator
            · cases hcomparator
          · cases hlexeme
  · intro hfound
    cases hfound with
    | number hstarts hvalue =>
        simp only [lexemeAt, hstarts, if_true]
        exact bind_eq_ok.mpr ⟨_, hvalue, rfl⟩
    | field hstarts hopened hname =>
        simp only [lexemeAt, hstarts, Bool.false_eq_true, if_false, hopened]
        exact bind_eq_ok.mpr ⟨_, hname, rfl⟩
    | single hstarts hopened hsingle =>
        simp only [lexemeAt, hstarts, Bool.false_eq_true, if_false, hopened, hsingle]
    | comparator hdialect hstarts hopened hsingle hcomparator =>
        simp only [lexemeAt, hstarts, Bool.false_eq_true, if_false, hopened, hsingle, hdialect,
          if_true, hcomparator]

end

/-! ## Faults -/

theorem position?_of_ofChars {position : Nat} {digits : List Char} {fault : SyntaxFault}
    (hvalue : Literal.ofChars position digits = .error fault) :
    fault.position? = some position := by
  unfold Literal.ofChars at hvalue
  split at hvalue
  · cases hvalue
    rfl
  · split at hvalue
    · split at hvalue
      · simp only at hvalue
        split at hvalue
        · cases hvalue
        · cases hvalue
          rfl
      · cases hvalue
        rfl
    · split at hvalue
      · cases hvalue
        rfl
      · cases hvalue

theorem position?_of_fieldName {scope : Scope} {position segments : Nat} {cs : List Char}
    {fault : SyntaxFault} (hname : fieldName scope position segments cs = .error fault) :
    fault.position? = some position := by
  induction segments generalizing cs with
  | zero => cases hname
  | succ n ih =>
      unfold fieldName at hname
      simp only at hname
      split at hname
      · cases hname
        rfl
      · split at hname
        · cases hname
        · split at hname
          · rcases bind_eq_error.mp hname with hmore | ⟨more, -, hmore⟩
            · exact ih hmore
            · cases hmore
          · cases hname
            rfl

/-- Where no token is found, the fault complains about that place. -/
theorem position?_of_lexemeAt {dialect : Dialect} {text : String} {position : Nat} {c : Char}
    {rest : List Char} {fault : SyntaxFault}
    (hlexeme : lexemeAt dialect text position c rest = .error fault) :
    fault.position? = some position := by
  unfold lexemeAt at hlexeme
  split at hlexeme
  · rcases bind_eq_error.mp hlexeme with hvalue | ⟨value, -, hvalue⟩
    · exact position?_of_ofChars hvalue
    · cases hvalue
  · split at hlexeme
    · rcases bind_eq_error.mp hlexeme with hname | ⟨name, -, hname⟩
      · exact position?_of_fieldName hname
      · cases hname
    · split at hlexeme
      · cases hlexeme
      · split at hlexeme
        · cases hlexeme
        · cases hlexeme
          rfl

/-! ## Tokens of a text -/

theorem foundAt_of_mem_scanFrom {dialect : Dialect} {text : String} {position : Nat}
    {cs : List Char} {t : Token} (ht : t ∈ (scanFrom dialect text position cs).tokens) :
    t.lexeme = .ending ∨ ∃ c rest extra, FoundAt dialect t.position c rest t.lexeme extra := by
  fun_induction scanFrom dialect text position cs with
  | case1 position =>
      obtain rfl := List.mem_singleton.mp ht
      exact .inl rfl
  | case2 position c rest hblank ih => exact ih ht
  | case3 position c rest hblank fault hfault => simp at ht
  | case4 position c rest hblank lexeme extra hlexeme later ih =>
      rcases List.mem_cons.mp ht with rfl | ht
      · exact .inr ⟨c, rest, extra, lexemeAt_eq_ok_iff.mp hlexeme⟩
      · exact ih ht

theorem tokens_eq_ok_iff {dialect : Dialect} {text : String} {ts : List Token} :
    tokens dialect text = .ok ts ↔
      (scan dialect text).fault? = none ∧ (scan dialect text).tokens = ts := by
  simp only [tokens]
  cases hfault : (scan dialect text).fault? <;> simp

theorem tokens_eq_error {dialect : Dialect} {text : String} {fault : SyntaxFault}
    (htokens : tokens dialect text = .error fault) : (scan dialect text).fault? = some fault := by
  simp only [tokens] at htokens
  cases hfault : (scan dialect text).fault? with
  | none => simp [hfault] at htokens
  | some fault' =>
      simp only [hfault, Except.error.injEq] at htokens
      rw [htokens]

theorem foundAt_of_mem_tokens {dialect : Dialect} {text : String} {ts : List Token} {t : Token}
    (hts : tokens dialect text = .ok ts) (ht : t ∈ ts) :
    t.lexeme = .ending ∨ ∃ c rest extra, FoundAt dialect t.position c rest t.lexeme extra := by
  obtain ⟨-, rfl⟩ := tokens_eq_ok_iff.mp hts
  exact foundAt_of_mem_scanFrom ht

theorem kind_of_ofSingle? {c : Char} {l : Lexeme} (hsingle : Lexeme.ofSingle? c = some l) :
    (∀ value, l ≠ .number value) ∧ ∀ scope name, l ≠ .field scope name := by
  unfold Lexeme.ofSingle? at hsingle
  split at hsingle <;> cases hsingle <;> simp

/-! ## Where a token stops -/

/-- The characters that a number or a name can go on with. -/
def isWordChar (c : Char) : Bool :=
  isNumberChar c || isNameChar c

theorem code_of_isAlphanum {c : Char} (hc : c.isAlphanum = true) :
    48 ≤ c.toNat ∧ c.toNat ≤ 122 := by
  have hbetween {low high : Char} (hlow : low.val ≤ c.val) (hhigh : c.val ≤ high.val) :
      low.toNat ≤ c.toNat ∧ c.toNat ≤ high.toNat :=
    ⟨UInt32.le_iff_toNat_le.mp hlow, UInt32.le_iff_toNat_le.mp hhigh⟩
  rcases Bool.or_eq_true_iff.mp hc with hletter | hdigit
  · rcases Bool.or_eq_true_iff.mp hletter with hupper | hlower
    · have hbounds : 'A'.val ≤ c.val ∧ c.val ≤ 'Z'.val := of_decide_eq_true hupper
      have hcode : 65 ≤ c.toNat ∧ c.toNat ≤ 90 := hbetween hbounds.1 hbounds.2
      omega
    · obtain ⟨hlow, hhigh⟩ := Bool.and_eq_true_iff.mp hlower
      have hcode : 97 ≤ c.toNat ∧ c.toNat ≤ 122 :=
        hbetween (of_decide_eq_true hlow) (of_decide_eq_true hhigh)
      omega
  · obtain ⟨hlow, hhigh⟩ := Bool.and_eq_true_iff.mp hdigit
    have hcode : 48 ≤ c.toNat ∧ c.toNat ≤ 57 :=
      hbetween (of_decide_eq_true hlow) (of_decide_eq_true hhigh)
    omega

theorem code_of_isWordChar {c : Char} (hc : isWordChar c = true) :
    46 ≤ c.toNat ∧ c.toNat ≤ 122 := by
  rcases Bool.or_eq_true_iff.mp hc with hnumber | hname
  · rcases Bool.or_eq_true_iff.mp hnumber with hdigit | hpoint
    · have hcode := code_of_isAlphanum (c := c) (Bool.or_eq_true_iff.mpr (.inr hdigit))
      omega
    · rw [of_decide_eq_true hpoint]
      decide
  · rcases Bool.or_eq_true_iff.mp hname with hletter | hline
    · have hcode := code_of_isAlphanum hletter
      omega
    · rw [of_decide_eq_true hline]
      decide

theorem isWordChar_of_isBlank {c : Char} (hc : Text.isBlank c = true) : isWordChar c = false := by
  by_contra hword
  have hcode := code_of_isWordChar (by simpa using hword)
  simp [Text.isBlank, Text.isBlankCode] at hc
  omega

theorem isBlank_of_isWordChar {c : Char} (hc : isWordChar c = true) : Text.isBlank c = false := by
  by_contra hblank
  have hword := isWordChar_of_isBlank (by simpa using hblank)
  rw [hc] at hword
  cases hword

theorem chars_of_ofSingle? {c : Char} {l : Lexeme} (hsingle : Lexeme.ofSingle? c = some l) :
    Text.isBlank c = false ∧ isWordChar c = false := by
  unfold Lexeme.ofSingle? at hsingle
  split at hsingle <;> cases hsingle <;> decide

/-- What follows a number or a name does not go on with it. -/
def Stops (rest : List Char) : Prop :=
  ∀ c ∈ rest.head?, isWordChar c = false

theorem stops_nil : Stops [] := by
  rintro c ⟨⟩

theorem stops_cons {c : Char} (hc : isWordChar c = false) (rest : List Char) :
    Stops (c :: rest) := by
  rintro d ⟨⟩
  exact hc

theorem Stops.blanks {blanks rest : List Char} (hblanks : ∀ c ∈ blanks, Text.isBlank c = true)
    (hrest : Stops rest) : Stops (blanks ++ rest) := by
  cases blanks with
  | nil => exact hrest
  | cons c blanks =>
      exact stops_cons (isWordChar_of_isBlank (hblanks c List.mem_cons_self)) _

theorem takeWhile_append_of_stops {p : Char → Bool} {cs rest : List Char}
    (hcs : ∀ c ∈ cs, p c = true) (hp : ∀ c, isWordChar c = false → p c = false)
    (hrest : Stops rest) : (cs ++ rest).takeWhile p = cs := by
  rw [List.takeWhile_append_of_pos hcs]
  cases rest with
  | nil => simp
  | cons c rest =>
      have hc : p c = false := hp c (hrest c rfl)
      simp [hc]

theorem isNumberChar_of_stop {c : Char} (hc : isWordChar c = false) : isNumberChar c = false :=
  (Bool.or_eq_false_iff.mp hc).1

theorem isNameChar_of_stop {c : Char} (hc : isWordChar c = false) : isNameChar c = false :=
  (Bool.or_eq_false_iff.mp hc).2

/-! ## What is found -/

theorem isNumberChar_of_isAsciiDigit {c : Char} (hc : Text.isAsciiDigit c = true) :
    isNumberChar c = true :=
  Bool.or_eq_true_iff.mpr (.inl hc)

theorem Literal.ofChars_of_digits {digits : List Char}
    (hdigits : ∀ c ∈ digits, Text.isAsciiDigit c = true) (position : Nat) :
    Literal.ofChars position digits =
      if Text.integerDigitLimit < digits.length then .error (.outOfRange position)
      else .ok (.int (Text.natOfDigits digits)) := by
  have hpoint : '.' ∉ digits := by
    intro hmem
    exact absurd (hdigits '.' hmem) (by decide)
  have hcount : ¬ 1 < digits.count '.' := by
    rw [List.count_eq_zero_of_not_mem hpoint]
    decide
  have hcontains : ¬ digits.contains '.' = true := by
    simpa using hpoint
  rw [Literal.ofChars, if_neg hcount, if_neg hcontains]

theorem foundAt_number {dialect : Dialect} {position : Nat} {d : Char} {ds rest : List Char}
    (hdigits : ∀ c ∈ d :: ds, Text.isAsciiDigit c = true)
    (hlimit : (d :: ds).length ≤ Text.integerDigitLimit) (hrest : Stops rest) :
    FoundAt dialect position d (ds ++ rest) (.number (.int (Text.natOfDigits (d :: ds))))
      ds.length := by
  have hchars : ∀ c ∈ d :: ds, isNumberChar c = true :=
    fun c hc => isNumberChar_of_isAsciiDigit (hdigits c hc)
  have htake : (d :: (ds ++ rest)).takeWhile isNumberChar = d :: ds :=
    takeWhile_append_of_stops hchars (fun _ => isNumberChar_of_stop) hrest
  have hvalue : Literal.ofChars position (d :: ds) =
      .ok (.int (Text.natOfDigits (d :: ds))) := by
    rw [Literal.ofChars_of_digits hdigits, if_neg (Nat.not_lt.mpr hlimit)]
  have hstarts : startsNumber d (ds ++ rest) = true := by
    simp [startsNumber, hdigits d List.mem_cons_self]
  have hfound : FoundAt dialect position d (ds ++ rest)
      (.number (.int (Text.natOfDigits (d :: ds))))
      (((d :: (ds ++ rest)).takeWhile isNumberChar).length - 1) :=
    .number hstarts (htake ▸ hvalue)
  rw [htake] at hfound
  exact hfound

/-- Characters that can make up one segment of a name. -/
def IsName (cs : List Char) : Prop :=
  cs ≠ [] ∧ ∀ c ∈ cs, isNameChar c = true

theorem isName_ofList (cs : List Char) (hsome : cs ≠ []) (hcs : cs.all isNameChar = true) :
    IsName (String.ofList cs).toList := by
  rw [String.toList_ofList]
  exact ⟨hsome, List.all_eq_true.mp hcs⟩

/-- Characters that name a field of a scope: as many segments as the scope has, with points between
them. -/
inductive Scope.Spells : Scope → List Char → Prop where
  | intake {name : List Char} (hname : IsName name) : Spells .intake name
  | steps {step output : List Char} (hstep : IsName step) (houtput : IsName output) :
      Spells .steps (step ++ '.' :: output)

/-- The name of a field goes on as long as its last segment does. -/
theorem fieldName_append {scope : Scope} {position : Nat} {name : List Char}
    (hname : scope.Spells name) (behind : List Char) :
    fieldName scope position scope.segments (name ++ behind) =
      .ok (name ++ behind.takeWhile isNameChar) := by
  have hone : ∀ {scope : Scope} {segment : List Char}, IsName segment →
      fieldName scope position 1 (segment ++ behind) =
        .ok (segment ++ behind.takeWhile isNameChar) := by
    intro scope segment hsegment
    rw [fieldName]
    simp only [List.takeWhile_append_of_pos hsegment.2]
    simp [hsegment.1]
  cases hname with
  | intake hname => exact hone hname
  | @steps step output hstep houtput =>
      have hpoint : isNameChar '.' = false := by decide
      have htake : (step ++ '.' :: (output ++ behind)).takeWhile isNameChar = step := by
        rw [List.takeWhile_append_of_pos hstep.2]
        simp [hpoint]
      rw [List.append_assoc, List.cons_append, Scope.segments, fieldName]
      simp only [htake, List.drop_left, hone houtput]
      simp [hstep.1]

theorem fieldName_of_spells {scope : Scope} {position : Nat} {name rest : List Char}
    (hname : scope.Spells name) (hrest : Stops rest) :
    fieldName scope position scope.segments (name ++ rest) = .ok name := by
  have htake : rest.takeWhile isNameChar = [] :=
    takeWhile_append_of_stops (List.forall_mem_nil _) (fun _ => isNameChar_of_stop) hrest
  rw [fieldName_append hname, htake, List.append_nil]

theorem isName_of_fieldName_one {scope : Scope} {position : Nat} {cs name : List Char}
    (hname : fieldName scope position 1 cs = .ok name) :
    IsName name ∧ ∃ rest, cs = name ++ rest := by
  simp only [fieldName] at hname
  split at hname
  · cases hname
  next hsome =>
    cases hname
    have hchars : ∀ c ∈ cs.takeWhile isNameChar, isNameChar c = true :=
      fun c hc => List.mem_takeWhile_imp hc
    refine ⟨⟨by simpa using hsome, hchars⟩, cs.dropWhile isNameChar, ?_⟩
    exact (List.takeWhile_append_dropWhile).symm

/-- A name that is found spells a field, and the text starts with it. -/
theorem spells_of_fieldName {scope : Scope} {position : Nat} {cs name : List Char}
    (hscope : scope ∈ Scope.reserved)
    (hname : fieldName scope position scope.segments cs = .ok name) :
    scope.Spells name ∧ ∃ rest, cs = name ++ rest := by
  simp only [Scope.reserved, List.mem_cons, List.not_mem_nil, or_false] at hscope
  rcases hscope with rfl | rfl
  · obtain ⟨hone, hrest⟩ := isName_of_fieldName_one hname
    exact ⟨.intake hone, hrest⟩
  · rw [Scope.segments, fieldName] at hname
    split at hname
    · cases hname
    next hsome =>
      rw [if_neg (by decide)] at hname
      split at hname
      next behind hbehind =>
        obtain ⟨more, hmore, hname⟩ := bind_eq_ok.mp hname
        cases hname
        obtain ⟨houtput, rest, rfl⟩ := isName_of_fieldName_one hmore
        have hstep : IsName (cs.takeWhile isNameChar) :=
          ⟨by simpa using hsome, fun c hc => List.mem_takeWhile_imp hc⟩
        have hsplit := List.prefix_iff_eq_append.mp (List.takeWhile_prefix (l := cs) isNameChar)
        rw [hbehind] at hsplit
        refine ⟨.steps hstep houtput, rest, ?_⟩
        rw [List.append_assoc, List.cons_append]
        exact hsplit.symm
      · cases hname

theorem openedScope?_append {scope : Scope} {name : List Char} (hname : scope.Spells name)
    (rest : List Char) : openedScope? (scope.opening.toList ++ rest) = some scope := by
  cases hname <;> rfl

theorem foundAt_field {dialect : Dialect} {position : Nat} {scope : Scope} {c : Char}
    {opening name rest : List Char} (hopening : scope.opening.toList = c :: opening)
    (hname : scope.Spells name) (hrest : Stops rest) :
    FoundAt dialect position c (opening ++ (name ++ rest)) (.field scope (String.ofList name))
      (opening.length + name.length) := by
  have hlength : scope.opening.length - 1 = opening.length := by
    rw [← String.length_toList, hopening]
    rfl
  have hopened : openedScope? (c :: (opening ++ (name ++ rest))) = some scope := by
    rw [← List.cons_append, ← hopening]
    exact openedScope?_append hname _
  have hletter : Text.isAsciiDigit c = false ∧ c ≠ '.' := by
    cases hname <;> cases hopening <;> decide
  have hstarts : startsNumber c (opening ++ (name ++ rest)) = false := by
    simp [startsNumber, hletter]
  have hfield : fieldName scope position scope.segments
      ((opening ++ (name ++ rest)).drop (scope.opening.length - 1)) = .ok name := by
    rw [hlength, List.drop_left]
    exact fieldName_of_spells hname hrest
  have hfound : FoundAt dialect position c (opening ++ (name ++ rest))
      (.field scope (String.ofList name)) (scope.opening.length - 1 + name.length) :=
    .field hstarts hopened hfield
  rw [hlength] at hfound
  exact hfound

theorem foundAt_single {dialect : Dialect} {position : Nat} {c : Char} {l : Lexeme}
    (hsingle : Lexeme.ofSingle? c = some l) (rest : List Char) :
    FoundAt dialect position c rest l 0 := by
  have hstarts : startsNumber c rest = false := by
    unfold Lexeme.ofSingle? at hsingle
    split at hsingle <;> cases hsingle <;> rfl
  have hopened : openedScope? (c :: rest) = none := by
    unfold Lexeme.ofSingle? at hsingle
    split at hsingle <;> cases hsingle <;> rfl
  exact .single hstarts hopened hsingle

/-! ## Scans -/

/-- A scan behind tokens that have been found before. -/
def Scan.after (ts : List Token) (s : Scan) : Scan :=
  ⟨ts ++ s.tokens, s.fault?⟩

@[simp] theorem Scan.after_after (ts us : List Token) (s : Scan) :
    (s.after us).after ts = s.after (ts ++ us) := by
  simp [Scan.after]

theorem scanFrom_blanks {dialect : Dialect} {text : String} {position : Nat} {blanks : List Char}
    (hblanks : ∀ c ∈ blanks, Text.isBlank c = true) (rest : List Char) :
    scanFrom dialect text position (blanks ++ rest) =
      scanFrom dialect text (position + blanks.length) rest := by
  induction blanks generalizing position with
  | nil => rfl
  | cons c blanks ih =>
      obtain ⟨hc, hblanks⟩ := List.forall_mem_cons.mp hblanks
      rw [List.cons_append, scanFrom, if_pos hc, ih hblanks, List.length_cons]
      congr 1
      omega

theorem scanFrom_of_foundAt {dialect : Dialect} {text : String} {position extra : Nat} {c : Char}
    {rest : List Char} {l : Lexeme} (hc : Text.isBlank c = false)
    (hfound : FoundAt dialect position c rest l extra) :
    scanFrom dialect text position (c :: rest) =
      (scanFrom dialect text (position + 1 + extra) (rest.drop extra)).after [⟨l, position⟩] := by
  have hlexeme : lexemeAt dialect text position c rest = .ok (l, extra) :=
    lexemeAt_eq_ok_iff.mpr hfound
  rw [scanFrom, if_neg (by simp [hc])]
  split
  next fault hfault =>
    rw [hlexeme] at hfault
    cases hfault
  next l' extra' hfound' =>
    rw [hlexeme] at hfound'
    cases hfound'
    rfl

end ModelPlaybook.Expression
