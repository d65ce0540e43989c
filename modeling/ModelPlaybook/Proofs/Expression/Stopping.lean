import ModelPlaybook.Proofs.Expression.Reader

/-!
# Where reading stops

A reading function leaves no token that could go on with what it has read.  If it fails, then at a
token of its own: what it took before that token can be completed, and it fails there whatever
stands behind the token.
-/

namespace ModelPlaybook.Expression

section

variable {level : Level} {rest : List Token}

theorem Level.stops_factor (rest : List Token) : Level.factor.Stops rest := by
  intro t ht l hl
  cases l with
  | sum | product => exact absurd hl (by decide)
  | factor => rfl

theorem Level.eq_of_rank {l : Level} (hle : level.rank ≤ l.rank)
    (hlt : l.rank < level.tighter.rank) : l = level := by
  cases level with
  | sum =>
      cases l with
      | sum => rfl
      | product | factor => exact absurd hlt (by decide)
  | product =>
      cases l with
      | sum => exact absurd hle (by decide)
      | product => rfl
      | factor => exact absurd hlt (by decide)
  | factor => exact absurd (Nat.lt_of_le_of_lt hle hlt) (by decide)

theorem Level.stops_of_tighter (hstops : level.tighter.Stops rest)
    (hnone : ∀ t ∈ rest.head?, level.join? t.lexeme = none) : level.Stops rest := by
  intro t ht l hl
  by_cases htighter : level.tighter.rank ≤ l.rank
  · exact hstops t ht l htighter
  · obtain rfl : l = level := Level.eq_of_rank hl (Nat.lt_of_not_le htighter)
    exact hnone t ht

end

namespace Tree

variable {level : Level} {fault : SyntaxFault}

/-! ## What is left -/

theorem stops_of_readRest (level : Level)
    (hpart : ∀ ts tree rest, readAt level.tighter ts = .ok (tree, rest) → level.tighter.Stops rest)
    {left tree : Tree} {ts rest : List Token} (hstops : level.tighter.Stops ts)
    (hread : readRest level left ts = .ok (tree, rest)) : level.Stops rest := by
  rcases stops_or_joins level ts with hnone | ⟨t, us, operator, hts, hjoin⟩
  · rw [readRest_of_none level hnone] at hread
    cases hread
    exact Level.stops_of_tighter hstops hnone
  · rw [hts, readRest_of_join hjoin] at hread
    obtain ⟨⟨right, rest'⟩, hright, hrest⟩ := bind_eq_ok.mp hread
    have hlength : ts.length = us.length + 1 := congrArg List.length hts
    have hshorter : rest'.length < us.length := length_of_readAt hright
    exact stops_of_readRest level hpart (hpart us right rest' hright) hrest
termination_by ts.length

/-- No token is left that could go on with what has been read. -/
theorem stops_of_readAt {ts rest : List Token} {tree : Tree}
    (hread : readAt level ts = .ok (tree, rest)) : level.Stops rest := by
  have hproduct : ∀ ts tree rest, readAt .product ts = .ok (tree, rest) →
      Level.product.Stops rest := by
    intro ts tree rest hread
    rw [readAt_eq_bind] at hread
    obtain ⟨⟨left, middle⟩, hleft, hrest⟩ := bind_eq_ok.mp hread
    exact stops_of_readRest .product (fun _ _ rest _ => Level.stops_factor rest)
      (Level.stops_factor middle) hrest
  cases level with
  | factor => exact Level.stops_factor rest
  | product => exact hproduct _ _ _ hread
  | sum =>
      rw [readAt_eq_bind] at hread
      obtain ⟨⟨left, middle⟩, hleft, hrest⟩ := bind_eq_ok.mp hread
      exact stops_of_readRest .sum hproduct (hproduct _ _ _ hleft) hrest

/-- What a reading function takes off the front of its tokens, it takes off the front of all tokens
that go on alike. -/
theorem exists_taken_of_readAt {ts rest : List Token} {tree : Tree}
    (hread : readAt level ts = .ok (tree, rest)) :
    ∃ taken, ts = taken ++ rest ∧ Writes level taken tree ∧
      ∀ us : List Token, us.head? = rest.head? → readAt level (taken ++ us) = .ok (tree, us) := by
  obtain ⟨taken, rfl, hwrites⟩ := writes_of_readAt level hread
  refine ⟨taken, rfl, hwrites, fun us hhead => ?_⟩
  exact readAt_of_reads (reads_of_writes hwrites) ((stops_of_readAt hread).congr hhead)

/-! ## Where it fails -/

/-- Reading fails at a token.  The tokens `before`, with those in front of that token behind them,
can be completed to a sentence, and whatever stands behind the token, reading fails alike. -/
def Stuck (level : Level) (read : List Token → Except SyntaxFault (Tree × List Token))
    (before ts : List Token) (fault : SyntaxFault) : Prop :=
  ∃ used t rest, ts = used ++ t :: rest ∧ fault.Blames t ∧
    (∃ back tree, Writes level (before ++ (used ++ back)) tree) ∧
    ∀ behind, read (used ++ t :: behind) = .error fault

theorem Stuck.after {level' : Level}
    {read read' : List Token → Except SyntaxFault (Tree × List Token)}
    {before before' ts : List Token} (taken : List Token)
    (hstuck : Stuck level' read' before' ts fault)
    (hwrites : ∀ us tree, Writes level' (before' ++ us) tree →
      ∃ more tree', Writes level (before ++ (taken ++ (us ++ more))) tree')
    (hread : ∀ us, us.head? = ts.head? → read' us = .error fault →
      read (taken ++ us) = .error fault) :
    Stuck level read before (taken ++ ts) fault := by
  obtain ⟨used, t, rest, rfl, hblames, ⟨back, tree, hsentence⟩, hfails⟩ := hstuck
  obtain ⟨more, tree', hlonger⟩ := hwrites _ tree hsentence
  refine ⟨taken ++ used, t, rest, by simp, hblames, ⟨back ++ more, tree', ?_⟩, fun behind => ?_⟩
  · simpa using hlonger
  · have hhead : (used ++ t :: behind).head? = (used ++ t :: rest).head? := by
      cases used <;> rfl
    rw [List.append_assoc]
    exact hread _ hhead (hfails behind)

/-- A token for a number. -/
def anyNumber : Token :=
  ⟨.number (.int 0), 0⟩

theorem stuck_of_unexpected {t : Token} {ts : List Token}
    (hread : ∀ us, readAt .factor (t :: us) = .error (.unexpectedToken t)) :
    Stuck .factor (readAt .factor) [] (t :: ts) (.unexpectedToken t) :=
  ⟨[], t, ts, rfl, .inr (.inr rfl), ⟨[anyNumber], _, .number rfl⟩, hread⟩

theorem stuck_of_closed {t : Token} {ts rest : List Token} {inner : Tree}
    (ht : t.lexeme = .leftParen) (hended : Ended ts) (hinner : readAt .sum ts = .ok (inner, rest))
    (hclosed : closed (inner, rest) = .error fault) :
    Stuck .factor (readAt .factor) [] (t :: ts) fault := by
  obtain ⟨taken, rfl, hwrites, hagain⟩ := exists_taken_of_readAt hinner
  have hrest : Ended rest := hended.of_append fun u hu => hwrites.ne_ending hu
  cases rest with
  | nil => exact absurd rfl hrest.ne_nil
  | cons u rest =>
      simp only [closed] at hclosed
      by_cases hu : u.lexeme = .rightParen
      · rw [if_pos hu] at hclosed
        cases hclosed
      · rw [if_neg hu] at hclosed
        cases hclosed
        refine ⟨t :: taken, u, rest, rfl, .inr (.inl rfl), ⟨[⟨.rightParen, 0⟩], inner, ?_⟩, ?_⟩
        · exact .parens ht rfl hwrites
        · intro behind
          have hsum : outcome (readSum (taken ++ u :: behind)) = .ok (inner, u :: behind) :=
            hagain (u :: behind) rfl
          simp only [List.cons_append, readAt, outcome_readFactor, ht, hsum]
          simp only [bind, Except.bind, closed, if_neg hu]

-- The recursion is the reader's own.  Each call fails at a token that `Stuck.after` carries
-- outwards over what has been taken before the call.
mutual

theorem stuck_of_readAt (level : Level) {ts : List Token} (hended : Ended ts)
    (hread : readAt level ts = .error fault) : Stuck level (readAt level) [] ts fault := by
  have hbound : level.rank ≤ 2 := level.rank_le_factor
  by_cases hlevel : level = .factor
  · rw [hlevel] at hread ⊢
    exact stuck_of_readFactor hended hread
  · have hrank : level.rank < level.tighter.rank := level.rank_lt_tighter hlevel
    rw [readAt_eq_bind] at hread
    rcases bind_eq_error.mp hread with hleft | ⟨⟨left, middle⟩, hleft, hrest⟩
    · apply (stuck_of_readAt level.tighter hended hleft).after []
      · intro us tree hwrites
        exact ⟨[], tree, by simpa using hwrites.loosen level.rank_le_tighter⟩
      · intro us hhead hfails
        rw [List.nil_append, readAt_eq_bind, hfails]
        rfl
    · have hshorter : middle.length < ts.length := length_of_readAt hleft
      obtain ⟨taken, rfl, hwrites, hagain⟩ := exists_taken_of_readAt hleft
      have hmiddle : Ended middle := hended.of_append fun u hu => hwrites.ne_ending hu
      have hbefore : Writes level taken left := hwrites.loosen level.rank_le_tighter
      apply (stuck_of_readRest level hmiddle hbefore hrest).after taken
      · intro us tree hlonger
        exact ⟨[], tree, by simpa using hlonger⟩
      · intro us hhead hfails
        rw [readAt_eq_bind, hagain us hhead]
        exact hfails
termination_by 5 * ts.length + (4 - level.rank)

theorem stuck_of_readRest (level : Level) {left : Tree} {before ts : List Token} (hended : Ended ts)
    (hbefore : Writes level before left) (hread : readRest level left ts = .error fault) :
    Stuck level (readRest level left) before ts fault := by
  rcases stops_or_joins level ts with hnone | ⟨t, us, operator, hts, hjoin⟩
  · rw [readRest_of_none level hnone] at hread
    cases hread
  · have hlength : ts.length = us.length + 1 := congrArg List.length hts
    rw [hts] at hended hread ⊢
    have hus : Ended us := hended.of_cons (Level.ne_ending_of_join? hjoin)
    rw [readRest_of_join hjoin] at hread
    rcases bind_eq_error.mp hread with hright | ⟨⟨right, rest⟩, hright, hrest⟩
    · apply (stuck_of_readAt level.tighter hus hright).after [t]
      · intro vs tree hwrites
        exact ⟨[], _, by simpa using hbefore.join hjoin hwrites⟩
      · intro vs hhead hfails
        rw [List.singleton_append, readRest_of_join hjoin, hfails]
        rfl
    · have hshorter : rest.length < us.length := length_of_readAt hright
      obtain ⟨taken, rfl, hwrites, hagain⟩ := exists_taken_of_readAt hright
      have hrest' : Ended rest := hus.of_append fun u hu => hwrites.ne_ending hu
      have hlonger := hbefore.join hjoin hwrites
      apply (stuck_of_readRest level hrest' hlonger hrest).after (t :: taken)
      · intro vs tree hwhole
        exact ⟨[], tree, by simpa using hwhole⟩
      · intro vs hhead hfails
        rw [List.cons_append, readRest_of_join hjoin, hagain vs hhead]
        exact hfails
termination_by 5 * ts.length

theorem stuck_of_readFactor {ts : List Token} (hended : Ended ts)
    (hread : readAt .factor ts = .error fault) : Stuck .factor (readAt .factor) [] ts fault := by
  match ts, hended, hread with
  | [], hended, _ => exact absurd rfl hended.ne_nil
  | t :: ts, hended, hread =>
      cases hl : t.lexeme with
      | number value =>
          rw [readAt, outcome_readFactor, hl] at hread
          cases hread
      | field scope name =>
          rw [readAt, outcome_readFactor, hl] at hread
          cases hread
      | leftParen =>
          have hts : Ended ts := hended.of_cons (by simp [hl])
          rw [readAt, outcome_readFactor, hl] at hread
          rcases bind_eq_error.mp hread with hinner | ⟨⟨inner, rest⟩, hinner, hclosed⟩
          · apply (stuck_of_readAt .sum hts hinner).after [t]
            · intro us tree hwrites
              exact ⟨[⟨.rightParen, 0⟩], tree, .parens hl rfl hwrites⟩
            · intro us hhead hfails
              rw [List.singleton_append, readAt, outcome_readFactor, hl]
              exact bind_eq_error.mpr (.inl hfails)
          · exact stuck_of_closed hl hts hinner hclosed
      | minus =>
          have hts : Ended ts := hended.of_cons (by simp [hl])
          rw [readAt, outcome_readFactor, hl] at hread
          apply (stuck_of_readFactor hts (map_eq_error.mp hread)).after [t]
          · intro us tree hwrites
            exact ⟨[], _, by simpa using Writes.negate hl hwrites⟩
          · intro us hhead hfails
            rw [List.singleton_append, readAt, outcome_readFactor, hl]
            exact map_eq_error.mpr hfails
      | plus | star | slash | rightParen | comparator k | ending =>
          have hfails : ∀ us, readAt .factor (t :: us) = .error (.unexpectedToken t) := by
            intro us
            rw [readAt, outcome_readFactor, hl]
          rw [hfails ts] at hread
          cases hread
          exact stuck_of_unexpected hfails
termination_by 5 * ts.length + 1

end

/-- Tokens that are not read have one that is to blame: a sentence begins with the tokens before it,
and what stands behind it does not matter. -/
theorem stuck_of_ofTokens {ts : List Token} (hended : Ended ts)
    (hread : ofTokens ts = .error fault) :
    ∃ used t rest, ts = used ++ t :: rest ∧ fault.Blames t ∧
      (∃ back tree, Writes .sum (used ++ back) tree) ∧
      ∀ behind, ofTokens (used ++ t :: behind) = .error fault := by
  rw [ofTokens_eq_bind] at hread
  rcases bind_eq_error.mp hread with hsum | ⟨⟨tree, rest⟩, hsum, hfinished⟩
  · obtain ⟨used, t, rest, hts, hblames, hbegins, hfails⟩ := stuck_of_readAt .sum hended hsum
    refine ⟨used, t, rest, hts, hblames, hbegins, fun behind => ?_⟩
    rw [ofTokens_eq_bind, hfails behind]
    rfl
  · obtain ⟨taken, rfl, hwrites, hagain⟩ := exists_taken_of_readAt hsum
    have hrest : Ended rest := hended.of_append fun u hu => hwrites.ne_ending hu
    cases rest with
    | nil => exact absurd rfl hrest.ne_nil
    | cons t rest =>
        simp only [finished] at hfinished
        by_cases ht : t.lexeme = .ending
        · rw [if_pos ht] at hfinished
          cases hfinished
        · rw [if_neg ht] at hfinished
          cases hfinished
          refine ⟨taken, t, rest, rfl, .inl rfl, ⟨[], tree, by simpa using hwrites⟩,
            fun behind => ?_⟩
          rw [ofTokens_eq_bind, hagain (t :: behind) rfl]
          exact if_neg ht

/-- Tokens that are not read have one that is to blame. -/
theorem blames_of_ofTokens {ts : List Token} (hended : Ended ts)
    (hread : ofTokens ts = .error fault) : ∃ t ∈ ts, fault.Blames t := by
  obtain ⟨used, t, rest, rfl, hblames, -, -⟩ := stuck_of_ofTokens hended hread
  exact ⟨t, by simp, hblames⟩

end Tree

end ModelPlaybook.Expression
