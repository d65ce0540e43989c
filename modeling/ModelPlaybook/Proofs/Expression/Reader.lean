import ModelPlaybook.Proofs.Expression.Grammar
import ModelPlaybook.Proofs.Failing

/-!
# The reader of expressions

What each reading function gives, in terms of the functions it calls, without the bounds that make
it end.  Sums and products are read alike, by level.  From these equations the reader takes a
sentence of its level off the front of the tokens and gives the tree that the sentence writes, and
it takes every sentence in this way.  So no tokens write two trees.
-/

namespace ModelPlaybook.Expression

namespace Tree

/-- What a reading function gives, without the bound on the tokens that are left. -/
def outcome {holds : List Token → Prop} (r : Reading holds) :
    Except SyntaxFault (Tree × List Token) :=
  r.map (·.1)

theorem outcome_eq_ok {holds : List Token → Prop} {r : Reading holds} {tree : Tree}
    {rest : List Token} (hr : outcome r = .ok (tree, rest)) :
    ∃ h : holds rest, r = .ok ⟨(tree, rest), h⟩ := by
  obtain ⟨⟨p, h⟩, rfl, rfl⟩ := map_eq_ok.mp hr
  exact ⟨h, rfl⟩

/-! ## Equations -/

theorem outcome_readSum (ts : List Token) :
    outcome (readSum ts) =
      outcome (readProduct ts) >>= fun r => outcome (readSumRest r.1 r.2) := by
  rw [readSum]
  cases readProduct ts with
  | error fault => rfl
  | ok r =>
      obtain ⟨⟨left, rest⟩, h⟩ := r
      change _ = outcome (readSumRest left rest)
      simp only
      cases readSumRest left rest <;> rfl

theorem outcome_readSumRest_of_join {t : Token} {operator : Operator}
    (ht : t.lexeme.additive? = some operator) (left : Tree) (ts : List Token) :
    outcome (readSumRest left (t :: ts)) =
      outcome (readProduct ts) >>= fun r =>
        outcome (readSumRest (binary operator left r.1) r.2) := by
  rw [readSumRest]
  split
  next hnone => rw [ht] at hnone; cases hnone
  next operator' hoperator =>
    obtain rfl : operator = operator' := Option.some.inj (ht.symm.trans hoperator)
    cases readProduct ts with
    | error fault => rfl
    | ok r =>
        obtain ⟨⟨right, rest⟩, h⟩ := r
        change _ = outcome (readSumRest (binary operator left right) rest)
        simp only
        cases readSumRest (binary operator left right) rest <;> rfl

theorem outcome_readSumRest_of_stop {ts : List Token}
    (hstop : ∀ t ∈ ts.head?, t.lexeme.additive? = none) (left : Tree) :
    outcome (readSumRest left ts) = .ok (left, ts) := by
  rw [readSumRest.eq_def]
  split
  · rfl
  next t rest =>
    split
    · rfl
    next operator hoperator =>
      rw [hstop t rfl] at hoperator
      cases hoperator

theorem outcome_readProduct (ts : List Token) :
    outcome (readProduct ts) =
      outcome (readFactor ts) >>= fun r => outcome (readProductRest r.1 r.2) := by
  rw [readProduct]
  cases readFactor ts with
  | error fault => rfl
  | ok r =>
      obtain ⟨⟨left, rest⟩, h⟩ := r
      change _ = outcome (readProductRest left rest)
      simp only
      cases readProductRest left rest <;> rfl

theorem outcome_readProductRest_of_join {t : Token} {operator : Operator}
    (ht : t.lexeme.multiplicative? = some operator) (left : Tree) (ts : List Token) :
    outcome (readProductRest left (t :: ts)) =
      outcome (readFactor ts) >>= fun r =>
        outcome (readProductRest (binary operator left r.1) r.2) := by
  rw [readProductRest]
  split
  next hnone => rw [ht] at hnone; cases hnone
  next operator' hoperator =>
    obtain rfl : operator = operator' := Option.some.inj (ht.symm.trans hoperator)
    cases readFactor ts with
    | error fault => rfl
    | ok r =>
        obtain ⟨⟨right, rest⟩, h⟩ := r
        change _ = outcome (readProductRest (binary operator left right) rest)
        simp only
        cases readProductRest (binary operator left right) rest <;> rfl

theorem outcome_readProductRest_of_stop {ts : List Token}
    (hstop : ∀ t ∈ ts.head?, t.lexeme.multiplicative? = none) (left : Tree) :
    outcome (readProductRest left ts) = .ok (left, ts) := by
  rw [readProductRest.eq_def]
  split
  · rfl
  next t rest =>
    split
    · rfl
    next operator hoperator =>
      rw [hstop t rfl] at hoperator
      cases hoperator

/-- What stands behind the inside of parentheses has to close them. -/
def closed (r : Tree × List Token) : Except SyntaxFault (Tree × List Token) :=
  match r.2 with
  | [] => .error .exhausted
  | u :: rest => if u.lexeme = .rightParen then .ok (r.1, rest) else .error (.expectedParen u)

theorem outcome_readFactor (t : Token) (ts : List Token) :
    outcome (readFactor (t :: ts)) =
      match t.lexeme with
      | .number value => .ok (number value.toNumber, ts)
      | .field scope name => .ok (reference ⟨scope, name, some t.position⟩, ts)
      | .leftParen => outcome (readSum ts) >>= closed
      | .minus => (outcome (readFactor ts)).map fun r => (negate r.1, r.2)
      | _ => .error (.unexpectedToken t) := by
  rw [readFactor]
  cases t.lexeme with
  | number value => rfl
  | field scope name => rfl
  | leftParen =>
      simp only
      cases readSum ts with
      | error fault => rfl
      | ok r =>
          obtain ⟨⟨inner, rest⟩, h⟩ := r
          cases rest with
          | nil => rfl
          | cons u rest =>
              change _ = closed (inner, u :: rest)
              simp only [closed]
              split <;> rfl
  | minus =>
      simp only
      cases readFactor ts with
      | error fault => rfl
      | ok r => rfl
  | plus | star | slash | rightParen | comparator c | ending => rfl

/-! ## Levels -/

/-- The reading function of a level. -/
def readAt : Level → List Token → Except SyntaxFault (Tree × List Token)
  | .sum, ts => outcome (readSum ts)
  | .product, ts => outcome (readProduct ts)
  | .factor, ts => outcome (readFactor ts)

/-- The function that reads on behind a left side of a level. -/
def readRest : Level → Tree → List Token → Except SyntaxFault (Tree × List Token)
  | .sum, left, ts => outcome (readSumRest left ts)
  | .product, left, ts => outcome (readProductRest left ts)
  | .factor, left, ts => .ok (left, ts)

theorem readAt_eq_bind (level : Level) (ts : List Token) :
    readAt level ts = readAt level.tighter ts >>= fun r => readRest level r.1 r.2 := by
  cases level with
  | sum => exact outcome_readSum ts
  | product => exact outcome_readProduct ts
  | factor => exact (bind_pure _).symm

theorem readRest_of_join {level : Level} {t : Token} {operator : Operator}
    (ht : level.join? t.lexeme = some operator) (left : Tree) (ts : List Token) :
    readRest level left (t :: ts) =
      readAt level.tighter ts >>= fun r => readRest level (binary operator left r.1) r.2 := by
  cases level with
  | sum => exact outcome_readSumRest_of_join ht left ts
  | product => exact outcome_readProductRest_of_join ht left ts
  | factor => cases ht

theorem readRest_of_none (level : Level) {ts : List Token}
    (hnone : ∀ t ∈ ts.head?, level.join? t.lexeme = none) (left : Tree) :
    readRest level left ts = .ok (left, ts) := by
  cases level with
  | sum => exact outcome_readSumRest_of_stop hnone left
  | product => exact outcome_readProductRest_of_stop hnone left
  | factor => rfl

/-- What stands behind a whole sentence has to be the ending. -/
def finished (r : Tree × List Token) : Except SyntaxFault Tree :=
  match r.2 with
  | [] => .error .exhausted
  | t :: _ => if t.lexeme = .ending then .ok r.1 else .error (.afterEnd t)

theorem ofTokens_eq_bind (ts : List Token) : ofTokens ts = readAt .sum ts >>= finished := by
  rw [ofTokens, readAt, outcome]
  cases readSum ts with
  | error fault => rfl
  | ok r =>
      obtain ⟨⟨tree, rest⟩, h⟩ := r
      cases rest <;> rfl

theorem length_of_readAt {level : Level} {ts rest : List Token} {tree : Tree}
    (hread : readAt level ts = .ok (tree, rest)) : rest.length < ts.length := by
  cases level with
  | sum => exact (outcome_eq_ok (r := readSum ts) hread).1
  | product => exact (outcome_eq_ok (r := readProduct ts) hread).1
  | factor => exact (outcome_eq_ok (r := readFactor ts) hread).1

/-- Behind a left side, either an operator of the level goes on with it or nothing does. -/
theorem stops_or_joins (level : Level) (ts : List Token) :
    (∀ t ∈ ts.head?, level.join? t.lexeme = none) ∨
      ∃ t us operator, ts = t :: us ∧ level.join? t.lexeme = some operator := by
  cases ts with
  | nil => exact .inl fun t ht => nomatch ht
  | cons t us =>
      cases hjoin : level.join? t.lexeme with
      | none =>
          refine .inl fun u hu => ?_
          cases hu
          exact hjoin
      | some operator => exact .inr ⟨t, us, operator, rfl, hjoin⟩

/-! ## What is read is a sentence -/

theorem closed_eq_ok {inner tree : Tree} {middle rest : List Token}
    (hclosed : closed (inner, middle) = .ok (tree, rest)) :
    tree = inner ∧ ∃ u, middle = u :: rest ∧ u.lexeme = .rightParen := by
  cases middle with
  | nil => cases hclosed
  | cons u behind =>
      simp only [closed] at hclosed
      by_cases hu : u.lexeme = .rightParen
      · rw [if_pos hu] at hclosed
        cases hclosed
        exact ⟨rfl, u, rfl, hu⟩
      · rw [if_neg hu] at hclosed
        cases hclosed

mutual

theorem writes_of_readAt (level : Level) {ts rest : List Token} {tree : Tree}
    (hread : readAt level ts = .ok (tree, rest)) :
    ∃ used, ts = used ++ rest ∧ Writes level used tree := by
  have hbound : level.rank ≤ 2 := level.rank_le_factor
  by_cases hlevel : level = .factor
  · rw [hlevel] at hread ⊢
    exact writes_of_readFactor hread
  · have hrank : level.rank < level.tighter.rank := level.rank_lt_tighter hlevel
    rw [readAt_eq_bind] at hread
    obtain ⟨⟨left, middle⟩, hleft, hrest⟩ := bind_eq_ok.mp hread
    have hshorter : middle.length < ts.length := length_of_readAt hleft
    obtain ⟨used, hused, hwrites⟩ := writes_of_readAt level.tighter hleft
    have hbefore : Writes level used left := hwrites.loosen level.rank_le_tighter
    obtain ⟨more, rfl, htree⟩ := writes_of_readRest level hbefore hrest
    refine ⟨used ++ more, ?_, htree⟩
    rw [hused, List.append_assoc]
termination_by 5 * ts.length + (4 - level.rank)

theorem writes_of_readRest (level : Level) {left tree : Tree} {before ts rest : List Token}
    (hbefore : Writes level before left) (hread : readRest level left ts = .ok (tree, rest)) :
    ∃ used, ts = used ++ rest ∧ Writes level (before ++ used) tree := by
  rcases stops_or_joins level ts with hnone | ⟨t, us, operator, hts, hjoin⟩
  · rw [readRest_of_none level hnone] at hread
    cases hread
    exact ⟨[], rfl, by rwa [List.append_nil]⟩
  · have hlength : ts.length = us.length + 1 := congrArg List.length hts
    rw [hts, readRest_of_join hjoin] at hread
    obtain ⟨⟨right, middle⟩, hright, hrest⟩ := bind_eq_ok.mp hread
    have hshorter : middle.length < us.length := length_of_readAt hright
    obtain ⟨used, hused, hwrites⟩ := writes_of_readAt level.tighter hright
    obtain ⟨more, rfl, htree⟩ := writes_of_readRest level (hbefore.join hjoin hwrites) hrest
    refine ⟨t :: used ++ more, ?_, by simpa using htree⟩
    rw [hts, hused]
    simp
termination_by 5 * ts.length

theorem writes_of_readFactor {ts rest : List Token} {tree : Tree}
    (hread : readAt .factor ts = .ok (tree, rest)) :
    ∃ used, ts = used ++ rest ∧ Writes .factor used tree := by
  match ts, hread with
  | [], hread =>
      rw [readAt, readFactor] at hread
      cases hread
  | t :: ts, hread =>
      rw [readAt, outcome_readFactor] at hread
      split at hread
      next value ht =>
        cases hread
        exact ⟨[t], rfl, .number ht⟩
      next scope name ht =>
        cases hread
        exact ⟨[t], rfl, .reference ht⟩
      next ht =>
        obtain ⟨⟨inner, middle⟩, hinner, hclosed⟩ := bind_eq_ok.mp hread
        obtain ⟨rfl, u, rfl, hu⟩ := closed_eq_ok hclosed
        obtain ⟨used, rfl, hwrites⟩ := writes_of_readAt .sum hinner
        exact ⟨t :: (used ++ [u]), by simp, .parens ht hu hwrites⟩
      next ht =>
        obtain ⟨⟨operand, behind⟩, hoperand, hpair⟩ := map_eq_ok.mp hread
        obtain ⟨rfl, rfl⟩ := Prod.mk.inj hpair
        obtain ⟨used, rfl, hwrites⟩ := writes_of_readFactor hoperand
        exact ⟨t :: used, rfl, .negate ht hwrites⟩
      next => cases hread
termination_by 5 * ts.length + 1

end

/-- What a list of tokens is read as is written by the tokens before an ending. -/
theorem writes_of_ofTokens {ts : List Token} {tree : Tree} (hread : ofTokens ts = .ok tree) :
    ∃ used t rest, ts = used ++ t :: rest ∧ t.lexeme = .ending ∧ Writes .sum used tree := by
  rw [ofTokens_eq_bind] at hread
  obtain ⟨⟨tree', rest⟩, hsum, hfinished⟩ := bind_eq_ok.mp hread
  obtain ⟨used, hused, hwrites⟩ := writes_of_readAt .sum hsum
  cases rest with
  | nil => cases hfinished
  | cons t rest =>
      simp only [finished] at hfinished
      by_cases ht : t.lexeme = .ending
      · rw [if_pos ht] at hfinished
        cases hfinished
        exact ⟨used, t, rest, hused, ht, hwrites⟩
      · rw [if_neg ht] at hfinished
        cases hfinished

/-- The tree that a text is read as is written by some of the text's tokens. -/
theorem writes_of_ofText {text : String} {tree : Tree} (hread : ofText text = .ok tree) :
    ∃ ts used, tokens .arithmetic text = .ok ts ∧ used ⊆ ts ∧ Writes .sum used tree := by
  unfold ofText at hread
  split at hread
  · cases hread
  · obtain ⟨ts, hts, htree⟩ := bind_eq_ok.mp hread
    obtain ⟨used, t, rest, hused, -, hwrites⟩ := writes_of_ofTokens htree
    exact ⟨ts, used, hts, hused ▸ List.subset_append_left _ _, hwrites⟩

/-! ## Sentences are read -/

end Tree

/-- What follows does not go on with a sentence of a level, or of a tighter one inside it. -/
def Level.Stops (level : Level) (rest : List Token) : Prop :=
  ∀ t ∈ rest.head?, ∀ l : Level, level.rank ≤ l.rank → l.join? t.lexeme = none

section

variable {level : Level} {rest us : List Token}

theorem Level.Stops.none (hstops : level.Stops rest) {t : Token} (ht : t ∈ rest.head?) :
    level.join? t.lexeme = .none :=
  hstops t ht level (Nat.le_refl _)

theorem Level.Stops.tighter (hstops : level.Stops rest) : level.tighter.Stops rest :=
  fun t ht l hl => hstops t ht l (Nat.le_trans level.rank_le_tighter hl)

theorem Level.Stops.congr (hstops : level.Stops rest) (hhead : us.head? = rest.head?) :
    level.Stops us := by
  unfold Level.Stops at hstops ⊢
  rwa [hhead]

theorem multiplicative?_eq_none_of_additive? {l : Lexeme} {operator : Operator}
    (hl : l.additive? = some operator) : l.multiplicative? = none := by
  cases l <;> cases hl <;> rfl

/-- An operator of a level goes on with nothing tighter. -/
theorem Level.stops_of_join {t : Token} {operator : Operator}
    (ht : level.join? t.lexeme = some operator) (rest : List Token) :
    level.tighter.Stops (t :: rest) := by
  rintro u ⟨⟩ l hl
  cases level with
  | sum =>
      cases l with
      | sum => exact absurd hl (by decide)
      | product => exact multiplicative?_eq_none_of_additive? ht
      | factor => rfl
  | product =>
      cases l with
      | sum | product => exact absurd hl (by decide)
      | factor => rfl
  | factor => cases ht

/-- Neither an ending nor a closing parenthesis goes on with anything. -/
theorem Level.stops_of_closing {t : Token} (ht : t.lexeme = .ending ∨ t.lexeme = .rightParen)
    (rest : List Token) : level.Stops (t :: rest) := by
  rintro u ⟨⟩ l hl
  rcases ht with ht | ht
  · rw [ht]
    cases l <;> rfl
  · rw [ht]
    cases l <;> rfl

end

namespace Tree

variable {level : Level} {ts us : List Token} {tree left right : Tree}

/-- What the reader does with tokens of a level that stand in front of others: a product or a sum
can go on behind them, and then their tree is the left side of what follows. -/
def Reads (level : Level) (ts : List Token) (tree : Tree) : Prop :=
  ∀ rest, level.tighter.Stops rest → readAt level (ts ++ rest) = readRest level tree rest

theorem readAt_of_reads (hreads : Reads level ts tree) {rest : List Token}
    (hstops : level.Stops rest) : readAt level (ts ++ rest) = .ok (tree, rest) :=
  (hreads rest hstops.tighter).trans (readRest_of_none level (fun _ => hstops.none) tree)

theorem Reads.loosen (level : Level) {ts : List Token} {tree : Tree}
    (hreads : Reads level.tighter ts tree) : Reads level ts tree := by
  intro rest hrest
  rw [readAt_eq_bind, readAt_of_reads hreads hrest]
  rfl

theorem Reads.join {t : Token} {operator : Operator} (ht : level.join? t.lexeme = some operator)
    (hleft : Reads level ts left) (hright : Reads level.tighter us right) :
    Reads level (ts ++ t :: us) (binary operator left right) := by
  intro rest hrest
  calc
    readAt level (ts ++ t :: us ++ rest)
      = readAt level (ts ++ t :: (us ++ rest)) := by
        rw [List.append_assoc, List.cons_append]
    _ = readRest level left (t :: (us ++ rest)) := hleft _ (Level.stops_of_join ht _)
    _ = readAt level.tighter (us ++ rest) >>= fun r =>
          readRest level (binary operator left r.1) r.2 := readRest_of_join ht left _
    _ = readRest level (binary operator left right) rest := by
        rw [readAt_of_reads hright hrest]
        rfl

theorem Reads.parens {t u : Token} (ht : t.lexeme = .leftParen) (hu : u.lexeme = .rightParen)
    (hinner : Reads .sum ts tree) : Reads .factor (t :: (ts ++ [u])) tree := by
  intro rest hrest
  have hsum : outcome (readSum (ts ++ u :: rest)) = .ok (tree, u :: rest) :=
    readAt_of_reads hinner (Level.stops_of_closing (.inr hu) rest)
  calc
    outcome (readFactor (t :: (ts ++ [u]) ++ rest))
      = outcome (readFactor (t :: (ts ++ u :: rest))) := by
        rw [List.cons_append, List.append_assoc, List.singleton_append]
    _ = outcome (readSum (ts ++ u :: rest)) >>= closed := by
        simp only [outcome_readFactor, ht]
    _ = closed (tree, u :: rest) := by
        rw [hsum]
        rfl
    _ = .ok (tree, rest) := by
        simp only [closed, hu, if_true]

/-- The reader takes what writes a tree off the front of its tokens. -/
theorem reads_of_writes (hwrites : Writes level ts tree) : Reads level ts tree := by
  induction hwrites with
  | number ht | reference ht =>
      intro rest hrest
      simp only [List.cons_append, List.nil_append, readAt, outcome_readFactor, ht, readRest]
  | parens ht hu hinner ih => exact ih.parens ht hu
  | negate ht hoperand ih =>
      intro rest hrest
      have hfactor : outcome (readFactor (_ ++ rest)) = _ := ih rest hrest
      simp only [List.cons_append, readAt, outcome_readFactor, ht, hfactor]
      rfl
  | ofFactor hfactor ih => exact Reads.loosen .product ih
  | product ht hleft hright ihleft ihright => exact ihleft.join ht ihright
  | ofProduct hproduct ih => exact Reads.loosen .sum ih
  | sum ht hleft hright ihleft ihright => exact ihleft.join ht ihright

/-- A sentence in front of an ending is read as the tree that it writes. -/
theorem ofTokens_of_writes {rest : List Token} {last : Token} (hwrites : Writes .sum ts tree)
    (hlast : last.lexeme = .ending) : ofTokens (ts ++ last :: rest) = .ok tree := by
  have hstops : Level.sum.Stops (last :: rest) := Level.stops_of_closing (.inl hlast) rest
  rw [ofTokens_eq_bind, readAt_of_reads (reads_of_writes hwrites) hstops]
  exact if_pos hlast

end Tree

/-- No tokens write two trees. -/
theorem Writes.unique {ts : List Token} {tree tree' : Tree} (hwrites : Writes .sum ts tree)
    (hwrites' : Writes .sum ts tree') : tree = tree' := by
  have hread : Tree.ofTokens (ts ++ [⟨.ending, 0⟩]) = .ok tree :=
    Tree.ofTokens_of_writes hwrites rfl
  have hread' : Tree.ofTokens (ts ++ [⟨.ending, 0⟩]) = .ok tree' :=
    Tree.ofTokens_of_writes hwrites' rfl
  exact Except.ok.inj (hread.symm.trans hread')

/-! ## Faults -/

/-- A fault of reading that complains about a token. -/
def SyntaxFault.Blames (t : Token) (fault : SyntaxFault) : Prop :=
  fault = .afterEnd t ∨ fault = .expectedParen t ∨ fault = .unexpectedToken t

/-- Tokens of which the last one is an ending. -/
def Ended (ts : List Token) : Prop :=
  ∃ front last, ts = front ++ [last] ∧ last.lexeme = .ending

theorem Ended.ne_nil {ts : List Token} (hended : Ended ts) : ts ≠ [] := by
  obtain ⟨front, last, rfl, -⟩ := hended
  simp

/-- Reading never gets behind the ending. -/
theorem Ended.of_append {used rest : List Token} (hended : Ended (used ++ rest))
    (hused : ∀ t ∈ used, t.lexeme ≠ .ending) : Ended rest := by
  obtain ⟨front, last, hts, hlast⟩ := hended
  rcases List.eq_nil_or_concat rest with rfl | ⟨front', last', rfl⟩
  · have hmem : last ∈ used := by
      rw [List.append_nil] at hts
      simp [hts]
    exact absurd hlast (hused last hmem)
  · rw [List.concat_eq_append, ← List.append_assoc] at hts
    obtain ⟨-, rfl⟩ := List.append_inj' hts rfl |>.imp_right List.singleton_inj.mp
    exact ⟨front', last', List.concat_eq_append, hlast⟩

theorem Ended.of_cons {t : Token} {ts : List Token} (hended : Ended (t :: ts))
    (ht : t.lexeme ≠ .ending) : Ended ts := by
  have hused : ∀ u ∈ [t], u.lexeme ≠ .ending := List.forall_mem_singleton.mpr ht
  exact Ended.of_append hended hused

end ModelPlaybook.Expression
