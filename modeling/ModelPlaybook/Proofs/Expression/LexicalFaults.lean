import ModelPlaybook.Proofs.Expression.Lexemes

/-!
# Where no token fits

The scan of a text stops at the first place where no token fits, and nothing in front of that place
has to do with it: the text up to there can be read, and its tokens are those that the scan had
found.  They are the same whatever follows behind that place.
-/

namespace ModelPlaybook.Expression

/-! ## How far a token looks -/

theorem takeWhile_of_take {p : Char → Bool} {cs : List Char} {n : Nat}
    (hn : ((cs.take n).takeWhile p).length < n) : cs.takeWhile p = (cs.take n).takeWhile p := by
  by_cases hall : cs.length ≤ n
  · rw [List.take_of_length_le hall]
  · have hcut : (cs.take n).length = n := List.length_take_of_le (by omega)
    have hends : ((cs.take n).takeWhile p).length ≠ (cs.take n).length := by omega
    have hwhole : (cs.take n ++ cs.drop n).takeWhile p = (cs.take n).takeWhile p := by
      rw [List.takeWhile_append, if_neg hends]
    rwa [List.take_append_drop] at hwhole

section

variable {dialect : Dialect} {text : String} {position extra n : Nat} {c : Char}
  {rest : List Char} {l : Lexeme}

theorem fieldName_of_take {scope : Scope} {cs name : List Char} (hscope : scope ∈ Scope.reserved)
    (hname : fieldName scope position scope.segments (cs.take n) = .ok name)
    (hn : name.length < n) : fieldName scope position scope.segments cs = .ok name := by
  obtain ⟨hspells, after, hafter⟩ := spells_of_fieldName hscope hname
  have hstarts : name <+: cs.take n := ⟨after, hafter.symm⟩
  obtain ⟨behind, rfl⟩ : name <+: cs := hstarts.trans (List.take_prefix n cs)
  have hcut : (name ++ behind).take n = name ++ behind.take (n - name.length) := by
    rw [List.take_append, List.take_of_length_le (Nat.le_of_lt hn)]
  rw [hcut, fieldName_append hspells, Except.ok.injEq] at hname
  have hnone : (behind.take (n - name.length)).takeWhile isNameChar = [] := by simpa using hname
  have hends : behind.takeWhile isNameChar = [] := by
    rw [takeWhile_of_take (by rw [hnone]; exact Nat.sub_pos_of_lt hn), hnone]
  rw [fieldName_append hspells, hends, List.append_nil]

theorem FoundAt.of_take (hfound : FoundAt dialect position c (rest.take n) l extra)
    (hn : extra < n) : FoundAt dialect position c rest l extra := by
  have hcons : c :: rest.take n = (c :: rest).take (n + 1) := rfl
  have hpos : 0 < n := by omega
  have hwhole : ∀ {word : List Char}, word <+: c :: rest.take n → word <+: c :: rest :=
    fun hword => hword.trans (List.take_prefix (n + 1) (c :: rest))
  cases hfound with
  | @number value hstarts hvalue =>
      have hrun : (c :: rest).takeWhile isNumberChar =
          (c :: rest.take n).takeWhile isNumberChar := by
        rw [hcons] at hn ⊢
        exact takeWhile_of_take (by omega)
      rw [startsNumber_take hpos] at hstarts
      rw [← hrun] at hvalue ⊢
      exact .number hstarts hvalue
  | @field scope name hstarts hopened hname =>
      have hscope : scope ∈ Scope.reserved := List.mem_of_find?_eq_some hopened
      have hopened' : openedScope? (c :: rest) = some scope := by
        obtain ⟨behind, hbehind⟩ := hwhole (starts_of_openedScope? hopened)
        rw [← hbehind]
        exact openedScope?_append (spells_of_fieldName hscope hname).1 behind
      rw [startsNumber_take hpos] at hstarts
      rw [List.drop_take] at hname
      exact .field hstarts hopened' (fieldName_of_take hscope hname (by omega))
  | single hstarts hopened hsingle => exact foundAt_single hsingle rest
  | @comparator k hdialect hstarts hopened hsingle hcomparator =>
      have hsymbol : k.symbol.toList <+: c :: rest := hwhole (starts_of_comparatorAt? hcomparator)
      have hopened' : openedScope? (c :: rest) = none := by
        obtain ⟨behind, hbehind⟩ := hsymbol
        cases k <;> cases hbehind <;> rfl
      -- The whole text might have a longer comparator there.  But no comparator goes beyond the
      -- next character, so the part would have it too.
      obtain ⟨j, hj, -⟩ := exists_comparatorAt? hsymbol
      have hlength : j.symbol.toList.length ≤ n + 1 := by
        have htwo : j.symbol.toList.length ≤ 2 := by cases j <;> decide
        omega
      have hpart : comparatorAt? (c :: rest.take n) = some j := find?_isPrefixOf_take hj hlength
      obtain rfl : k = j := Option.some.inj (hcomparator.symm.trans hpart)
      rw [startsNumber_take hpos] at hstarts
      exact .comparator hdialect hstarts hopened' hsingle hj

/-- A token depends on its own characters and on the next one, and it is the same if the text ends
behind it. -/
theorem FoundAt.congr_behind {taken ahead behind : List Char}
    (hfound : FoundAt dialect position c (taken ++ ahead) l taken.length)
    (hnext : ∀ d ∈ behind.head?, d ∈ ahead.head?) :
    FoundAt dialect position c (taken ++ behind) l taken.length := by
  cases behind with
  | nil =>
      have hpart := hfound.take (Nat.le_refl taken.length)
      rw [List.take_left] at hpart
      rwa [List.append_nil]
  | cons d behind =>
      obtain ⟨later, rfl⟩ := List.head?_eq_some_iff.mp (hnext d rfl)
      have hpart := hfound.take (Nat.le_succ taken.length)
      have hsame : (taken ++ d :: later).take (taken.length + 1) =
          (taken ++ d :: behind).take (taken.length + 1) := by
        rw [List.take_length_add_append, List.take_length_add_append]
        rfl
      rw [hsame] at hpart
      exact hpart.of_take (Nat.lt_succ_self _)

theorem not_heads_of_fault {fault : SyntaxFault} {lexeme : List Char}
    (hfault : lexemeAt dialect text position c rest = .error fault) :
    ¬ l.Heads dialect (c :: rest) lexeme := by
  intro hheads
  obtain ⟨l', extra, hfound, -⟩ := hheads.exists_foundAt position
  rw [lexemeAt_eq_ok_iff.mpr hfound] at hfault
  cases hfault

end

/-! ## Scans that go through the front of a text -/

theorem add_length_cons_append (position : Nat) (c : Char) (taken front : List Char) :
    position + (c :: (taken ++ front)).length = position + 1 + taken.length + front.length := by
  rw [List.length_cons, List.length_append]
  omega

/-- With these characters behind it, the scan finds these tokens in the front and goes on with what
is behind. -/
def Passes (dialect : Dialect) (position : Nat) (front behind : List Char) (ts : List Token) :
    Prop :=
  ∀ text, scanFrom dialect text position (front ++ behind) =
    (scanFrom dialect text (position + front.length) behind).after ts

namespace Passes

variable {dialect : Dialect} {text : String} {position : Nat} {c : Char} {front behind : List Char}
  {l : Lexeme} {ts : List Token}

theorem nil : Passes dialect position [] behind [] :=
  fun _ => rfl

theorem blank (hc : Text.isBlank c = true)
    (hpasses : Passes dialect (position + 1) front behind ts) :
    Passes dialect position (c :: front) behind ts := by
  intro text
  have hplace : position + (c :: front).length = position + 1 + front.length :=
    add_length_cons_append position c [] front
  rw [List.cons_append, scanFrom, if_pos hc, hpasses text, hplace]

theorem token {taken : List Char} (hc : Text.isBlank c = false)
    (hfound : FoundAt dialect position c (taken ++ (front ++ behind)) l taken.length)
    (hpasses : Passes dialect (position + 1 + taken.length) front behind ts) :
    Passes dialect position (c :: (taken ++ front)) behind (⟨l, position⟩ :: ts) := by
  intro text
  rw [add_length_cons_append, List.cons_append, List.append_assoc, scanFrom_of_foundAt hc hfound,
    List.drop_left, hpasses text, Scan.after_after]
  rfl

theorem scan_eq (hpasses : Passes dialect 0 front behind ts)
    (htext : text.toList = front ++ behind) :
    scan dialect text = (scanFrom dialect text front.length behind).after ts := by
  rw [scan, htext, hpasses text, Nat.zero_add]

theorem tokens_eq (hpasses : Passes dialect 0 front [] ts) :
    tokens dialect (String.ofList front) = .ok (ts ++ [⟨.ending, front.length⟩]) := by
  have htext : (String.ofList front).toList = front ++ [] := by
    rw [String.toList_ofList, List.append_nil]
  rw [tokens, hpasses.scan_eq htext, scanFrom]
  rfl

end Passes

section

variable {dialect : Dialect} {text : String} {position : Nat} {cs : List Char}

/-- A scan that stops has gone through everything in front of the place where it stops.  It goes
through it in the same way if the text ends there, and if it goes on there with the same
character. -/
theorem exists_passes_of_scanFrom {fault : SyntaxFault}
    (hfault : (scanFrom dialect text position cs).fault? = some fault) :
    ∃ front c rest, cs = front ++ c :: rest ∧ Text.isBlank c = false ∧
      lexemeAt dialect text (position + front.length) c rest = .error fault ∧
      ∀ behind : List Char, (∀ d ∈ behind.head?, d = c) →
        Passes dialect position front behind (scanFrom dialect text position cs).tokens := by
  fun_induction scanFrom dialect text position cs with
  | case1 position => cases hfault
  | case2 position c rest hblank ih =>
      obtain ⟨front, d, later, rfl, hd, hstop, hpasses⟩ := ih hfault
      refine ⟨c :: front, d, later, rfl, hd, ?_, fun behind hnext => ?_⟩
      · rwa [List.length_cons, Nat.add_comm front.length, ← Nat.add_assoc]
      · exact .blank hblank (hpasses behind hnext)
  | case3 position c rest hblank fault' hlexeme =>
      cases hfault
      exact ⟨[], c, rest, rfl, by simpa using hblank, hlexeme, fun behind _ => .nil⟩
  | case4 position c rest hblank lexeme extra hlexeme later ih =>
      obtain ⟨front, d, more, hrest, hd, hstop, hpasses⟩ := ih hfault
      have hfound := lexemeAt_eq_ok_iff.mp hlexeme
      obtain ⟨taken, rfl, rfl⟩ : ∃ taken, rest = taken ++ (front ++ d :: more) ∧
          extra = taken.length := by
        refine ⟨rest.take extra, ?_, (List.length_take_of_le hfound.extra_le).symm⟩
        rw [← hrest, List.take_append_drop]
      refine ⟨c :: (taken ++ front), d, more, by simp, hd, ?_, fun behind hnext => ?_⟩
      · rwa [add_length_cons_append]
      · -- What follows the token starts as before: with the rest of the front, or else with what is
        -- behind it.
        have hsame : ∀ e ∈ (front ++ behind).head?, e ∈ (front ++ d :: more).head? := by
          cases front with
          | nil =>
              intro e he
              rw [hnext e he]
              rfl
          | cons e front => exact fun _ he => he
        exact .token (by simpa using hblank) (hfound.congr_behind hsame) (hpasses behind hnext)

theorem le_position_of_scanFrom {t : Token}
    (ht : t ∈ (scanFrom dialect text position cs).tokens) : position ≤ t.position := by
  fun_induction scanFrom dialect text position cs with
  | case1 position =>
      obtain rfl := List.mem_singleton.mp ht
      exact Nat.le_refl _
  | case2 position c rest hblank ih => exact (Nat.le_succ position).trans (ih ht)
  | case3 position c rest hblank fault hlexeme => cases ht
  | case4 position c rest hblank lexeme extra hlexeme later ih =>
      rcases List.mem_cons.mp ht with rfl | ht
      · exact Nat.le_refl _
      · have hlater := ih ht
        omega

theorem position_lt_of_tokens {ts : List Token} {p : Nat}
    (hts : tokens dialect text = .ok (ts ++ [⟨.ending, p⟩])) : ∀ t ∈ ts, t.position < p := by
  intro t ht
  have hincreasing := (cutFrom_of_tokens hts).increasing
  exact (List.pairwise_append.mp hincreasing).2.2 t ht _ (List.mem_singleton_self _)

end

/-! ## Faults -/

/-- The scan of a text stops at a place, and nothing is wrong in front of it. -/
structure StopsAt (dialect : Dialect) (text : String) (p : Nat) : Prop where
  within : p < text.length
  /-- Neither a blank nor a lexeme stands at the place. -/
  stuck : ∃ c rest, text.toList.drop p = c :: rest ∧ Text.isBlank c = false ∧
    ∀ (l : Lexeme) (lexeme : List Char), ¬ l.Heads dialect (c :: rest) lexeme
  /-- The text in front of the place can be read, as the tokens that the scan has found. -/
  before : tokens dialect (String.ofList (text.toList.take p)) =
    .ok ((scan dialect text).tokens ++ [⟨.ending, p⟩])
  /-- A text that differs only behind the place has the same tokens in front of it. -/
  independent : ∀ text' : String, text'.toList.take (p + 1) = text.toList.take (p + 1) →
    (scan dialect text').tokens.filter (·.position < p) = (scan dialect text).tokens

theorem stopsAt_of_passes {dialect : Dialect} {text : String} {position : Nat} {fault : SyntaxFault}
    {front rest : List Char} {c : Char} (htext : text.toList = front ++ c :: rest)
    (hc : Text.isBlank c = false) (hstop : lexemeAt dialect text position c rest = .error fault)
    (hpasses : ∀ behind : List Char, (∀ d ∈ behind.head?, d = c) →
      Passes dialect 0 front behind (scan dialect text).tokens) :
    StopsAt dialect text front.length := by
  have hread := (hpasses [] (by simp)).tokens_eq
  constructor
  case within =>
    have hlength := congrArg List.length htext
    rw [String.length_toList, List.length_append, List.length_cons] at hlength
    omega
  case stuck =>
    refine ⟨c, rest, ?_, hc, fun l lexeme => not_heads_of_fault hstop⟩
    rw [htext, List.drop_left]
  case before =>
    rwa [htext, List.take_left]
  case independent =>
    intro text' hsame
    obtain ⟨later, htext'⟩ : ∃ later, text'.toList = front ++ c :: later := by
      have hstarts : (front ++ c :: rest).take (front.length + 1) = front ++ [c] :=
        List.take_length_add_append 1
      rw [htext, hstarts] at hsame
      refine ⟨text'.toList.drop (front.length + 1), ?_⟩
      rw [List.append_cons, ← hsame, List.take_append_drop]
    have hbefore := position_lt_of_tokens hread
    have hbehind : ∀ t ∈ (scanFrom dialect text' front.length (c :: later)).tokens,
        ¬ t.position < front.length :=
      fun t ht => Nat.not_lt.mpr (le_position_of_scanFrom ht)
    rw [(hpasses (c :: later) (by simp)).scan_eq htext', Scan.after, List.filter_append,
      List.filter_eq_self.mpr (by simpa using hbefore),
      List.filter_eq_nil_iff.mpr (by simpa using hbehind), List.append_nil]

/-- The fault with which the scan of a text ends complains about one place of the text.  Nothing is
wrong in front of this place, and the tokens there do not depend on what follows it. -/
theorem exists_stopsAt (dialect : Dialect) (text : String) (fault : SyntaxFault)
    (htokens : tokens dialect text = .error fault) :
    ∃ p, fault.position? = some p ∧ StopsAt dialect text p := by
  obtain ⟨front, c, rest, htext, hc, hstop, hpasses⟩ :=
    exists_passes_of_scanFrom (tokens_eq_error htokens)
  have hplace := position?_of_lexemeAt hstop
  rw [Nat.zero_add] at hplace
  exact ⟨front.length, hplace, stopsAt_of_passes htext hc hstop hpasses⟩

/-- In `intake.a>=.5steps.tax` it is the place of `steps`, though the scan has gone through the rest
of the text to find that a segment is missing. -/
theorem missing_segment_stopsAt :
    ∃ fault, tokens .condition "intake.a>=.5steps.tax" = .error fault ∧
      fault.position? = some 12 ∧ StopsAt .condition "intake.a>=.5steps.tax" 12 := by
  have htokens :
      tokens .condition "intake.a>=.5steps.tax" = .error (.missingSegment .steps 12) := by
    cbv
  obtain ⟨p, hplace, hstops⟩ := exists_stopsAt _ _ _ htokens
  obtain rfl : 12 = p := Option.some.inj hplace
  exact ⟨_, htokens, hplace, hstops⟩

end ModelPlaybook.Expression
