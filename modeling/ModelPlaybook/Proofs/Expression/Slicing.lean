import ModelPlaybook.Proofs.Expression.Scanning

/-!
# Scans of parts of a text

What the scan finds at one place depends on the characters that it takes and on no others, except
that the next character ends a number or a name.  So the part of a text before a token has the
tokens that the whole text has there, and the part behind a token has the tokens that follow it,
with positions counted anew.
-/

namespace ModelPlaybook.Expression

/-! ## What one token depends on -/

theorem Literal.ofChars_congr {position : Nat} {digits : List Char} {value : Literal}
    (hvalue : Literal.ofChars position digits = .ok value) (position' : Nat) :
    Literal.ofChars position' digits = .ok value := by
  unfold Literal.ofChars at hvalue ⊢
  split at hvalue
  · cases hvalue
  next hpoints =>
    rw [if_neg hpoints]
    split at hvalue
    next hpoint =>
      rw [if_pos hpoint]
      split at hvalue
      next l hl =>
        simp only at hvalue ⊢
        split at hvalue
        next hfinite =>
          rw [if_pos hfinite]
          exact hvalue
        · cases hvalue
      · cases hvalue
    next hpoint =>
      rw [if_neg hpoint]
      split at hvalue
      · cases hvalue
      next hlimit =>
        rw [if_neg hlimit]
        exact hvalue

theorem fieldName_congr {scope : Scope} {position segments : Nat} {cs name : List Char}
    (hname : fieldName scope position segments cs = .ok name) (position' : Nat) :
    fieldName scope position' segments cs = .ok name := by
  induction segments generalizing cs name with
  | zero => exact hname
  | succ n ih =>
      unfold fieldName at hname ⊢
      simp only at hname ⊢
      split at hname
      · cases hname
      next hsome =>
        rw [if_neg hsome]
        split at hname
        next hn =>
          rw [if_pos hn]
          exact hname
        next hn =>
          rw [if_neg hn]
          split at hname
          next rest hrest =>
            obtain ⟨more, hmore, hname⟩ := bind_eq_ok.mp hname
            exact bind_eq_ok.mpr ⟨more, ih hmore, hname⟩
          · cases hname

theorem takeWhile_take {p : Char → Bool} {cs : List Char} {n : Nat}
    (hn : (cs.takeWhile p).length ≤ n) : (cs.take n).takeWhile p = cs.takeWhile p := by
  induction cs generalizing n with
  | nil => simp
  | cons c cs ih =>
      by_cases hc : p c = true
      · rw [List.takeWhile_cons_of_pos hc, List.length_cons] at hn
        obtain ⟨m, rfl⟩ : ∃ m, n = m + 1 := ⟨n - 1, by omega⟩
        have hm : (cs.takeWhile p).length ≤ m := by omega
        rw [List.take_succ_cons, List.takeWhile_cons_of_pos hc, List.takeWhile_cons_of_pos hc,
          ih hm]
      · cases n with
        | zero => simp [List.takeWhile_cons_of_neg hc]
        | succ m =>
            rw [List.take_succ_cons, List.takeWhile_cons_of_neg hc, List.takeWhile_cons_of_neg hc]

theorem fieldName_take {scope : Scope} {position segments n : Nat} {cs name : List Char}
    (hname : fieldName scope position segments cs = .ok name) (hn : name.length ≤ n) :
    fieldName scope position segments (cs.take n) = .ok name := by
  induction segments generalizing cs name n with
  | zero => exact hname
  | succ m ih =>
      unfold fieldName at hname ⊢
      simp only at hname ⊢
      split at hname
      · cases hname
      next hsome =>
        split at hname
        next hm =>
          cases hname
          simp only [takeWhile_take hn, if_neg hsome, if_pos hm]
        next hm =>
          split at hname
          next rest hrest =>
            obtain ⟨more, hmore, hname⟩ := bind_eq_ok.mp hname
            cases hname
            rw [List.length_append, List.length_cons] at hn
            have hsegment : (cs.takeWhile isNameChar).length ≤ n := by omega
            obtain ⟨k, hk⟩ : ∃ k, n - (cs.takeWhile isNameChar).length = k + 1 :=
              ⟨n - (cs.takeWhile isNameChar).length - 1, by omega⟩
            have hdrop :
                (cs.take n).drop (cs.takeWhile isNameChar).length = '.' :: rest.take k := by
              rw [List.drop_take, hrest, hk, List.take_succ_cons]
            simp only [takeWhile_take hsegment, if_neg hsome, if_neg hm, hdrop]
            exact bind_eq_ok.mpr ⟨more, ih hmore (by omega), rfl⟩
          · cases hname

theorem startsNumber_take {c : Char} {rest : List Char} {n : Nat} (hn : 0 < n) :
    startsNumber c (rest.take n) = startsNumber c rest := by
  rw [startsNumber, startsNumber, List.head?_take, if_neg (by omega)]

theorem startsNumber_take_eq_false {c : Char} {rest : List Char}
    (hstarts : startsNumber c rest = false) (n : Nat) :
    startsNumber c (rest.take n) = false := by
  cases n with
  | zero =>
      have hdigit : Text.isAsciiDigit c = false := (Bool.or_eq_false_iff.mp hstarts).1
      simp [startsNumber, hdigit]
  | succ n => rwa [startsNumber_take (Nat.succ_pos n)]

/-- A number that starts with a point goes on with a digit. -/
theorem two_le_of_startsNumber {c : Char} {rest : List Char} (hstarts : startsNumber c rest = true)
    (hdigit : Text.isAsciiDigit c = false) : 2 ≤ ((c :: rest).takeWhile isNumberChar).length := by
  simp only [startsNumber, hdigit, Bool.false_or, Bool.and_eq_true, decide_eq_true_eq] at hstarts
  obtain ⟨rfl, hhead⟩ := hstarts
  cases rest with
  | nil => simp at hhead
  | cons d rest =>
      have hd : isNumberChar d = true := by
        simp only [List.head?_cons, Option.any_some] at hhead
        simp [isNumberChar, hhead]
      rw [List.takeWhile_cons_of_pos (by decide), List.takeWhile_cons_of_pos hd]
      simp

theorem isPrefixOf_take {front cs : List Char} {n : Nat} (hn : front.length ≤ n) :
    front.isPrefixOf (cs.take n) = front.isPrefixOf cs := by
  rw [Bool.eq_iff_iff, List.isPrefixOf_iff_prefix, List.isPrefixOf_iff_prefix]
  exact List.prefix_take_iff.trans (and_iff_left hn)

theorem starts_of_openedScope? {cs : List Char} {scope : Scope}
    (hopened : openedScope? cs = some scope) : scope.opening.toList <+: cs := by
  unfold openedScope? at hopened
  have hstarts := List.find?_some hopened
  rwa [List.isPrefixOf_iff_prefix] at hstarts

theorem starts_of_comparatorAt? {cs : List Char} {k : Comparator}
    (hcomparator : comparatorAt? cs = some k) : k.symbol.toList <+: cs := by
  unfold comparatorAt? at hcomparator
  have hstarts := List.find?_some hcomparator
  rwa [List.isPrefixOf_iff_prefix] at hstarts

/-- The first of some words that starts a text is also the first one that starts a part of it. -/
theorem find?_isPrefixOf_take {α : Type} {word : α → List Char} {words : List α} {cs : List Char}
    {n : Nat} {found : α} (hfound : (words.find? fun x => (word x).isPrefixOf cs) = some found)
    (hn : (word found).length ≤ n) :
    (words.find? fun x => (word x).isPrefixOf (cs.take n)) = some found := by
  rw [List.find?_eq_some_iff_append] at hfound ⊢
  obtain ⟨hstarts, before, behind, hwords, hbefore⟩ := hfound
  refine ⟨by rwa [isPrefixOf_take hn], before, behind, hwords, fun x hx => ?_⟩
  have hno := hbefore x hx
  simp only [Bool.not_eq_true', ← Bool.not_eq_true, List.isPrefixOf_iff_prefix] at hno ⊢
  exact fun hstarts => hno (hstarts.trans (List.take_prefix n cs))

theorem find?_isPrefixOf_take_eq_none {α : Type} {word : α → List Char} {words : List α}
    {cs : List Char} (hnone : (words.find? fun x => (word x).isPrefixOf cs) = none) (n : Nat) :
    (words.find? fun x => (word x).isPrefixOf (cs.take n)) = none := by
  rw [List.find?_eq_none] at hnone ⊢
  intro x hx
  have hno := hnone x hx
  rw [List.isPrefixOf_iff_prefix] at hno ⊢
  exact fun hstarts => hno (hstarts.trans (List.take_prefix n cs))

namespace FoundAt

variable {dialect : Dialect} {position extra : Nat} {c : Char} {rest : List Char} {lexeme : Lexeme}

theorem move (hfound : FoundAt dialect position c rest lexeme extra) (position' : Nat) :
    FoundAt dialect position' c rest lexeme extra := by
  cases hfound with
  | number hstarts hvalue => exact .number hstarts (Literal.ofChars_congr hvalue position')
  | field hstarts hopened hname => exact .field hstarts hopened (fieldName_congr hname position')
  | single hstarts hopened hsingle => exact .single hstarts hopened hsingle
  | comparator hdialect hstarts hopened hsingle hcomparator =>
      exact .comparator hdialect hstarts hopened hsingle hcomparator

/-- Whatever is no comparator is found in both dialects. -/
theorem arithmetic (hfound : FoundAt dialect position c rest lexeme extra)
    (hlexeme : ∀ k, lexeme ≠ .comparator k) :
    FoundAt .arithmetic position c rest lexeme extra := by
  cases hfound with
  | number hstarts hvalue => exact .number hstarts hvalue
  | field hstarts hopened hname => exact .field hstarts hopened hname
  | single hstarts hopened hsingle => exact .single hstarts hopened hsingle
  | @comparator k hdialect hstarts hopened hsingle hcomparator => exact absurd rfl (hlexeme k)

theorem ne_ending (hfound : FoundAt dialect position c rest lexeme extra) : lexeme ≠ .ending := by
  cases hfound with
  | number hstarts hvalue => simp
  | field hstarts hopened hname => simp
  | single hstarts hopened hsingle =>
      unfold Lexeme.ofSingle? at hsingle
      split at hsingle <;> cases hsingle <;> simp
  | comparator hdialect hstarts hopened hsingle hcomparator => simp

/-- A token lies within the text. -/
theorem extra_le (hfound : FoundAt dialect position c rest lexeme extra) :
    extra ≤ rest.length := by
  cases hfound with
  | number hstarts hvalue =>
      have hlength := (List.takeWhile_prefix (l := c :: rest) isNumberChar).length_le
      rw [List.length_cons] at hlength
      omega
  | @field scope name hstarts hopened hname =>
      obtain ⟨-, behind, hbehind⟩ := spells_of_fieldName (List.mem_of_find?_eq_some hopened) hname
      have hlength := congrArg List.length hbehind
      rw [List.length_drop, List.length_append] at hlength
      have hopening : scope.opening.toList <+: c :: rest := starts_of_openedScope? hopened
      have hle := hopening.length_le
      rw [String.length_toList, List.length_cons] at hle
      omega
  | single hstarts hopened hsingle => exact Nat.zero_le _
  | @comparator k hdialect hstarts hopened hsingle hcomparator =>
      have hsymbol : k.symbol.toList <+: c :: rest := starts_of_comparatorAt? hcomparator
      have hle := hsymbol.length_le
      rw [String.length_toList, List.length_cons] at hle
      omega

theorem take (hfound : FoundAt dialect position c rest lexeme extra) {n : Nat} (hn : extra ≤ n) :
    FoundAt dialect position c (rest.take n) lexeme extra := by
  have hcons : c :: rest.take n = (c :: rest).take (n + 1) := rfl
  cases hfound with
  | number hstarts hvalue =>
      have htake : (c :: rest.take n).takeWhile isNumberChar =
          (c :: rest).takeWhile isNumberChar := by
        rw [hcons, takeWhile_take (by omega)]
      have hstarts' : startsNumber c (rest.take n) = true := by
        cases hdigit : Text.isAsciiDigit c with
        | true => simp [startsNumber, hdigit]
        | false =>
            have hlength := two_le_of_startsNumber hstarts hdigit
            rwa [startsNumber_take (by omega)]
      rw [← htake] at hvalue ⊢
      exact .number hstarts' hvalue
  | @field scope name hstarts hopened hname =>
      have hopening : scope.opening.toList.length ≤ n + 1 := by
        rw [String.length_toList]
        omega
      have hnamed : fieldName scope position scope.segments
          ((rest.take n).drop (scope.opening.length - 1)) = .ok name := by
        rw [List.drop_take]
        exact fieldName_take hname (by omega)
      refine .field (startsNumber_take_eq_false hstarts n) ?_ hnamed
      rw [hcons]
      exact find?_isPrefixOf_take hopened hopening
  | single hstarts hopened hsingle =>
      refine .single (startsNumber_take_eq_false hstarts n) ?_ hsingle
      rw [hcons]
      exact find?_isPrefixOf_take_eq_none hopened (n + 1)
  | @comparator k hdialect hstarts hopened hsingle hcomparator =>
      have hsymbol : k.symbol.toList.length ≤ n + 1 := by
        rw [String.length_toList]
        omega
      refine .comparator hdialect (startsNumber_take_eq_false hstarts n) ?_ hsingle ?_
      · rw [hcons]
        exact find?_isPrefixOf_take_eq_none hopened (n + 1)
      · rw [hcons]
        exact find?_isPrefixOf_take hcomparator hsymbol

end FoundAt

/-! ## What the tokens of a part are -/

/-- A token at a place further on. -/
def Token.moved (offset : Nat) (t : Token) : Token :=
  ⟨t.lexeme, offset + t.position⟩

section

variable {dialect : Dialect} {text : String} {position : Nat} {cs : List Char}

theorem scanFrom_of_fault {c : Char} {rest : List Char} {fault : SyntaxFault}
    (hc : ¬ Text.isBlank c = true)
    (hlexeme : lexemeAt dialect text position c rest = .error fault) :
    scanFrom dialect text position (c :: rest) = ⟨[], some fault⟩ := by
  rw [scanFrom, if_neg hc]
  split
  next fault' hfault =>
    rw [hlexeme] at hfault
    cases hfault
    rfl
  next lexeme extra hfound =>
    rw [hlexeme] at hfound
    cases hfound

theorem drop_behind {whole rest : List Char} {c : Char} (hdrop : whole.drop position = c :: rest)
    (n : Nat) : whole.drop (position + 1 + n) = rest.drop n := by
  rw [← List.drop_drop, ← List.drop_drop, hdrop, List.drop_one, List.tail_cons]

/-- A scan that stops has met a place where no token is found. -/
theorem exists_stop_of_scanFrom {whole : List Char} {fault : SyntaxFault}
    (hdrop : whole.drop position = cs)
    (hfault : (scanFrom dialect text position cs).fault? = some fault) :
    ∃ p c rest, whole.drop p = c :: rest ∧ Text.isBlank c = false ∧
      lexemeAt dialect text p c rest = .error fault := by
  fun_induction scanFrom dialect text position cs with
  | case1 position => cases hfault
  | case2 position c rest hblank ih => exact ih (drop_behind hdrop 0) hfault
  | case3 position c rest hblank fault' hlexeme =>
      cases hfault
      exact ⟨position, c, rest, hdrop, by simpa using hblank, hlexeme⟩
  | case4 position c rest hblank lexeme extra hlexeme later ih =>
      exact ih (drop_behind hdrop extra) hfault

/-- The last token of a scan that goes through is its only ending. -/
theorem exists_ending_of_scanFrom
    (hfault : (scanFrom dialect text position cs).fault? = none) :
    ∃ body last, (scanFrom dialect text position cs).tokens = body ++ [last] ∧
      last.lexeme = .ending ∧ ∀ t ∈ body, t.lexeme ≠ .ending := by
  fun_induction scanFrom dialect text position cs with
  | case1 position => exact ⟨[], _, rfl, rfl, List.forall_mem_nil _⟩
  | case2 position c rest hblank ih => exact ih hfault
  | case3 position c rest hblank fault hlexeme => cases hfault
  | case4 position c rest hblank lexeme extra hlexeme later ih =>
      obtain ⟨body, last, hbody, hlast, hnone⟩ := ih hfault
      refine ⟨⟨lexeme, position⟩ :: body, last, congrArg _ hbody, hlast, ?_⟩
      exact List.forall_mem_cons.mpr ⟨(lexemeAt_eq_ok_iff.mp hlexeme).ne_ending, hnone⟩

/-- Without comparators a scan is the same in both dialects. -/
theorem scanFrom_arithmetic
    (hfault : (scanFrom dialect text position cs).fault? = none)
    (hts : ∀ t ∈ (scanFrom dialect text position cs).tokens, ∀ k, t.lexeme ≠ .comparator k)
    (text' : String) :
    scanFrom .arithmetic text' position cs = scanFrom dialect text position cs := by
  fun_induction scanFrom dialect text position cs with
  | case1 position => rw [scanFrom]
  | case2 position c rest hblank ih =>
      rw [scanFrom, if_pos hblank]
      exact ih hfault hts
  | case3 position c rest hblank fault hlexeme => cases hfault
  | case4 position c rest hblank lexeme extra hlexeme later ih =>
      obtain ⟨hfirst, hlater⟩ := List.forall_mem_cons.mp hts
      have hfound := (lexemeAt_eq_ok_iff.mp hlexeme).arithmetic hfirst
      rw [scanFrom_of_foundAt (by simpa using hblank) hfound, ih hfault hlater]
      rfl

/-- A scan that starts further on finds the same tokens further on. -/
theorem scanFrom_moved (offset : Nat) (text' : String) :
    (scanFrom dialect text (offset + position) cs).tokens =
        (scanFrom dialect text' position cs).tokens.map (Token.moved offset) ∧
      ((scanFrom dialect text (offset + position) cs).fault? = none ↔
        (scanFrom dialect text' position cs).fault? = none) := by
  fun_induction scanFrom dialect text' position cs with
  | case1 position =>
      rw [scanFrom]
      exact ⟨rfl, Iff.rfl⟩
  | case2 position c rest hblank ih =>
      rw [scanFrom, if_pos hblank]
      exact ih
  | case3 position c rest hblank fault hlexeme =>
      cases hmoved : lexemeAt dialect text (offset + position) c rest with
      | error fault' =>
          rw [scanFrom_of_fault hblank hmoved]
          simp
      | ok found =>
          obtain ⟨lexeme, extra⟩ := found
          have hfound := (lexemeAt_eq_ok_iff.mp hmoved).move position
          rw [lexemeAt_eq_ok_iff.mpr hfound] at hlexeme
          cases hlexeme
  | case4 position c rest hblank lexeme extra hlexeme later ih =>
      have hfound := (lexemeAt_eq_ok_iff.mp hlexeme).move (offset + position)
      have hplace : offset + position + 1 + extra = offset + (position + 1 + extra) := by omega
      rw [scanFrom_of_foundAt (by simpa using hblank) hfound, hplace]
      exact ⟨congrArg _ ih.1, ih.2⟩

/-- A token that a scan finds divides the text: the part before it has the tokens before it, and
the scan goes on behind it. -/
theorem exists_parts_of_scanFrom {t : Token} {behind : List Token} (ht : t.lexeme ≠ .ending) :
    ∀ before, (scanFrom dialect text position cs).tokens = before ++ t :: behind →
      ∃ front c rest extra, cs = front ++ c :: rest ∧ t.position = position + front.length ∧
        FoundAt dialect t.position c rest t.lexeme extra ∧
        (∀ text', scanFrom dialect text' position front =
          ⟨before ++ [⟨.ending, t.position⟩], none⟩) ∧
        scanFrom dialect text position cs =
          (scanFrom dialect text (t.position + 1 + extra) (rest.drop extra)).after
            (before ++ [t]) := by
  fun_induction scanFrom dialect text position cs with
  | case1 position =>
      intro before hbefore
      have hmem : t ∈ before ++ t :: behind := by simp
      rw [← hbefore] at hmem
      exact absurd (congrArg Token.lexeme (List.mem_singleton.mp hmem)) ht
  | case2 position c rest hblank ih =>
      intro before hbefore
      obtain ⟨front, d, rest', extra, rfl, hplace, hfound, hfront, hbehind⟩ := ih before hbefore
      refine ⟨c :: front, d, rest', extra, rfl, ?_, hfound, ?_, hbehind⟩
      · rw [hplace, List.length_cons]
        omega
      · intro text'
        rw [scanFrom, if_pos hblank]
        exact hfront text'
  | case3 position c rest hblank fault hlexeme =>
      intro before hbefore
      simp at hbefore
  | case4 position c rest hblank lexeme extra hlexeme later ih =>
      intro before hbefore
      have hfound := lexemeAt_eq_ok_iff.mp hlexeme
      have hc : Text.isBlank c = false := by simpa using hblank
      cases before with
      | nil =>
          obtain ⟨rfl, -⟩ := List.cons.inj hbefore
          exact ⟨[], c, rest, extra, rfl, rfl, hfound, fun text' => by rw [scanFrom]; rfl, rfl⟩
      | cons first before =>
          obtain ⟨rfl, hlater⟩ := List.cons.inj hbefore
          obtain ⟨front, d, rest', extra', hrest, hplace, hfound', hfront, hbehind⟩ :=
            ih before hlater
          have hwhole : rest = rest.take extra ++ (front ++ d :: rest') := by
            rw [← hrest, List.take_append_drop]
          have hlength : (rest.take extra).length = extra :=
            List.length_take_of_le hfound.extra_le
          have hcut : rest.take extra ++ front = rest.take (extra + front.length) := by
            rw [List.take_add, hrest, List.take_left]
          have hpart : FoundAt dialect position c (rest.take extra ++ front) lexeme extra := by
            rw [hcut]
            exact hfound.take (Nat.le_add_right _ _)
          refine ⟨c :: (rest.take extra ++ front), d, rest', extra', ?_, ?_, hfound', ?_, ?_⟩
          · rw [List.cons_append, List.append_assoc, ← hwhole]
          · rw [hplace, List.length_cons, List.length_append, hlength]
            omega
          · intro text'
            rw [scanFrom_of_foundAt hc hpart, List.drop_left' hlength, hfront text']
            rfl
          · exact congrArg (Scan.after [⟨lexeme, position⟩]) hbehind |>.trans (by simp)

end

end ModelPlaybook.Expression
