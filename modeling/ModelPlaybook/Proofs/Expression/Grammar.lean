import ModelPlaybook.Expression.Tree

/-!
# The grammar of expressions

A sum is products joined by `+` and `-`, a product is factors joined by `*` and `/`, and a factor
is a number, a reference, a sum in parentheses or a factor behind a minus sign.  Sums and products
are alike: each of them is parts of the next tighter level with the operators of its own between
them.
-/

namespace ModelPlaybook.Expression

/-- The three levels of the grammar, from the loosest to the tightest. -/
inductive Level where
  | sum
  | product
  | factor

/-- How loose the parts of a level are. -/
def Level.rank : Level → Nat
  | sum => 0
  | product => 1
  | factor => 2

/-- The level of the right side of a sum or a product. -/
def Level.tighter : Level → Level
  | sum => product
  | _ => factor

/-- The operators that join the parts of a level. -/
def Level.join? : Level → Lexeme → Option Operator
  | sum => Lexeme.additive?
  | product => Lexeme.multiplicative?
  | factor => fun _ => none

theorem Level.rank_le_factor (place : Level) : place.rank ≤ Level.factor.rank := by
  cases place <;> decide

theorem Level.rank_le_tighter (level : Level) : level.rank ≤ level.tighter.rank := by
  cases level <;> decide

theorem Level.rank_lt_tighter {level : Level} (hlevel : level ≠ .factor) :
    level.rank < level.tighter.rank := by
  cases level with
  | sum | product => decide
  | factor => exact absurd rfl hlevel

theorem Level.ne_ending_of_join? {level : Level} {l : Lexeme} {operator : Operator}
    (hl : level.join? l = some operator) : l ≠ .ending := by
  rintro rfl
  cases level <;> cases hl

/-- Tokens form a sentence of a level and write a tree. -/
inductive Writes : Level → List Token → Tree → Prop where
  | number {t : Token} {value : Literal} (ht : t.lexeme = .number value) :
      Writes .factor [t] (.number value.toNumber)
  | reference {t : Token} {scope : Scope} {name : String} (ht : t.lexeme = .field scope name) :
      Writes .factor [t] (.reference ⟨scope, name, some t.position⟩)
  | parens {t u : Token} {ts : List Token} {tree : Tree}
      (ht : t.lexeme = .leftParen) (hu : u.lexeme = .rightParen) (hinner : Writes .sum ts tree) :
      Writes .factor (t :: (ts ++ [u])) tree
  | negate {t : Token} {ts : List Token} {tree : Tree}
      (ht : t.lexeme = .minus) (hoperand : Writes .factor ts tree) :
      Writes .factor (t :: ts) (.negate tree)
  | ofFactor {ts : List Token} {tree : Tree} (hfactor : Writes .factor ts tree) :
      Writes .product ts tree
  | product {t : Token} {ts us : List Token} {operator : Operator} {left right : Tree}
      (ht : t.lexeme.multiplicative? = some operator)
      (hleft : Writes .product ts left) (hright : Writes .factor us right) :
      Writes .product (ts ++ t :: us) (.binary operator left right)
  | ofProduct {ts : List Token} {tree : Tree} (hproduct : Writes .product ts tree) :
      Writes .sum ts tree
  | sum {t : Token} {ts us : List Token} {operator : Operator} {left right : Tree}
      (ht : t.lexeme.additive? = some operator)
      (hleft : Writes .sum ts left) (hright : Writes .product us right) :
      Writes .sum (ts ++ t :: us) (.binary operator left right)

/-- What writes a tree tightly does so where a looser level is asked for. -/
theorem Writes.loosen {place level : Level} {ts : List Token} {tree : Tree}
    (hplace : place.rank ≤ level.rank) (hwrites : Writes level ts tree) :
    Writes place ts tree := by
  cases level with
  | sum =>
      cases place with
      | sum => exact hwrites
      | product | factor => simp [Level.rank] at hplace
  | product =>
      cases place with
      | sum => exact .ofProduct hwrites
      | product => exact hwrites
      | factor => simp [Level.rank] at hplace
  | factor =>
      cases place with
      | sum => exact .ofProduct (.ofFactor hwrites)
      | product => exact .ofFactor hwrites
      | factor => exact hwrites

theorem Writes.join {level : Level} {t : Token} {ts us : List Token} {operator : Operator}
    {left right : Tree} (ht : level.join? t.lexeme = some operator) (hleft : Writes level ts left)
    (hright : Writes level.tighter us right) :
    Writes level (ts ++ t :: us) (.binary operator left right) := by
  cases level with
  | sum => exact .sum ht hleft hright
  | product => exact .product ht hleft hright
  | factor => cases ht

theorem Writes.ne_ending {level : Level} {ts : List Token} {tree : Tree}
    (hwrites : Writes level ts tree) {t : Token} (ht : t ∈ ts) : t.lexeme ≠ .ending := by
  intro hending
  induction hwrites with
  | number hu | reference hu =>
      obtain rfl := List.mem_singleton.mp ht
      rw [hu] at hending
      cases hending
  | @parens u v ts tree hu hv hinner ih =>
      rcases List.mem_cons.mp ht with rfl | ht
      · rw [hu] at hending
        cases hending
      · rcases List.mem_append.mp ht with ht | ht
        · exact ih ht
        · obtain rfl := List.mem_singleton.mp ht
          rw [hv] at hending
          cases hending
  | negate hu hoperand ih =>
      rcases List.mem_cons.mp ht with rfl | ht
      · rw [hu] at hending
        cases hending
      · exact ih ht
  | ofFactor hfactor ih | ofProduct hproduct ih => exact ih ht
  | product hu hleft hright ihleft ihright | sum hu hleft hright ihleft ihright =>
      rcases List.mem_append.mp ht with ht | ht
      · exact ihleft ht
      · rcases List.mem_cons.mp ht with rfl | ht
        · rw [hending] at hu
          cases hu
        · exact ihright ht

/-- Every reference of a tree stands among the tokens that write it. -/
theorem Writes.exists_field {level : Level} {ts : List Token} {tree : Tree}
    (hwrites : Writes level ts tree) {r : Reference} (hr : r ∈ tree.references) :
    ∃ t ∈ ts, t.lexeme = .field r.scope r.name ∧ r.position = some t.position := by
  induction hwrites with
  | number ht =>
      simp [Tree.references] at hr
  | reference ht =>
      simp only [Tree.references, List.mem_singleton] at hr
      subst hr
      exact ⟨_, List.mem_singleton_self _, ht, rfl⟩
  | parens ht hu hinner ih =>
      obtain ⟨t', ht', hfield⟩ := ih hr
      exact ⟨t', by simp [ht'], hfield⟩
  | negate ht hoperand ih =>
      obtain ⟨t', ht', hfield⟩ := ih hr
      exact ⟨t', List.mem_cons_of_mem _ ht', hfield⟩
  | ofFactor hfactor ih =>
      exact ih hr
  | ofProduct hproduct ih =>
      exact ih hr
  | product ht hleft hright ihleft ihright | sum ht hleft hright ihleft ihright =>
      rcases List.mem_append.mp hr with hr | hr
      · obtain ⟨t', ht', hfield⟩ := ihleft hr
        exact ⟨t', by simp [ht'], hfield⟩
      · obtain ⟨t', ht', hfield⟩ := ihright hr
        exact ⟨t', by simp [ht'], hfield⟩

end ModelPlaybook.Expression
