import Mathlib
import ModelPlaybook.Proofs.Expression.Stopping

/-!
# Sentences

The grammar of expressions, with repetition in place of recursion to the left: a sum is a product
and any number of products behind operators, and likewise a product is made of factors.  The trees
of the repeated parts are joined from the left.  The reader takes these sentences and no others: it
gives the one tree that a sentence writes, and on other tokens it blames one of them.  Never does it
look behind the ending.
-/

namespace ModelPlaybook.Expression

/-- An operator and its right side, as they follow one another in a sum or a product. -/
structure Link where
  join : Token
  operator : Operator
  operand : List Token
  tree : Tree

def Link.tokens (links : List Link) : List Token :=
  links.flatMap fun link => link.join :: link.operand

/-- The links joined to what stands before them, the first link first. -/
def Link.onto (left : Tree) (links : List Link) : Tree :=
  links.foldl (fun left link => .binary link.operator left link.tree) left

/-- Tokens form a sentence of a level, with its tree. -/
inductive Sentence : Level → List Token → Tree → Prop where
  | number {t : Token} {value : Literal} (ht : t.lexeme = .number value) :
      Sentence .factor [t] (.number value.toNumber)
  | reference {t : Token} {scope : Scope} {name : String} (ht : t.lexeme = .field scope name) :
      Sentence .factor [t] (.reference ⟨scope, name, some t.position⟩)
  | parens {t u : Token} {ts : List Token} {tree : Tree}
      (ht : t.lexeme = .leftParen) (hu : u.lexeme = .rightParen) (hinner : Sentence .sum ts tree) :
      Sentence .factor (t :: (ts ++ [u])) tree
  | negate {t : Token} {ts : List Token} {tree : Tree}
      (ht : t.lexeme = .minus) (hoperand : Sentence .factor ts tree) :
      Sentence .factor (t :: ts) (.negate tree)
  | product {ts : List Token} {tree : Tree} {links : List Link}
      (hfirst : Sentence .factor ts tree)
      (hjoins : ∀ link ∈ links, link.join.lexeme.multiplicative? = some link.operator)
      (hlinks : ∀ link ∈ links, Sentence .factor link.operand link.tree) :
      Sentence .product (ts ++ Link.tokens links) (Link.onto tree links)
  | sum {ts : List Token} {tree : Tree} {links : List Link}
      (hfirst : Sentence .product ts tree)
      (hjoins : ∀ link ∈ links, link.join.lexeme.additive? = some link.operator)
      (hlinks : ∀ link ∈ links, Sentence .product link.operand link.tree) :
      Sentence .sum (ts ++ Link.tokens links) (Link.onto tree links)

/-! ## Repetition and recursion to the left -/

/-- What holds of a first part and goes over to every link behind it holds of all of them. -/
theorem Link.fold {P : List Token → Tree → Prop} {links : List Link}
    (hlink : ∀ link ∈ links, ∀ ts left, P ts left →
      P (ts ++ link.join :: link.operand) (.binary link.operator left link.tree))
    {ts : List Token} {tree : Tree} (hfirst : P ts tree) :
    P (ts ++ Link.tokens links) (Link.onto tree links) := by
  induction links generalizing ts tree with
  | nil => simpa [Link.tokens, Link.onto] using hfirst
  | cons link links ih =>
      obtain ⟨hhead, htail⟩ := List.forall_mem_cons.mp hlink
      have hextended := ih htail (hhead ts tree hfirst)
      simpa [Link.tokens, Link.onto] using hextended

theorem Sentence.writes {level : Level} {ts : List Token} {tree : Tree}
    (hsentence : Sentence level ts tree) : Writes level ts tree := by
  induction hsentence with
  | number ht => exact .number ht
  | reference ht => exact .reference ht
  | parens ht hu hinner ih => exact .parens ht hu ih
  | negate ht hoperand ih => exact .negate ht ih
  | product hfirst hjoins hlinks ih ihlinks =>
      refine Link.fold (fun link hlink ts left hleft => ?_) (.ofFactor ih)
      exact .product (hjoins link hlink) hleft (ihlinks link hlink)
  | sum hfirst hjoins hlinks ih ihlinks =>
      refine Link.fold (fun link hlink ts left hleft => ?_) (.ofProduct ih)
      exact .sum (hjoins link hlink) hleft (ihlinks link hlink)

theorem Sentence.product_snoc {t : Token} {ts us : List Token} {operator : Operator}
    {left right : Tree} (ht : t.lexeme.multiplicative? = some operator)
    (hleft : Sentence .product ts left) (hright : Sentence .factor us right) :
    Sentence .product (ts ++ t :: us) (.binary operator left right) := by
  cases hleft with
  | @product ts tree links hfirst hjoins hlinks =>
      have hlonger : Sentence .product (ts ++ Link.tokens (links ++ [⟨t, operator, us, right⟩]))
          (Link.onto tree (links ++ [⟨t, operator, us, right⟩])) :=
        .product hfirst (List.forall_mem_append.mpr ⟨hjoins, List.forall_mem_singleton.mpr ht⟩)
          (List.forall_mem_append.mpr ⟨hlinks, List.forall_mem_singleton.mpr hright⟩)
      simpa [Link.tokens, Link.onto] using hlonger

theorem Sentence.sum_snoc {t : Token} {ts us : List Token} {operator : Operator}
    {left right : Tree} (ht : t.lexeme.additive? = some operator)
    (hleft : Sentence .sum ts left) (hright : Sentence .product us right) :
    Sentence .sum (ts ++ t :: us) (.binary operator left right) := by
  cases hleft with
  | @sum ts tree links hfirst hjoins hlinks =>
      have hlonger : Sentence .sum (ts ++ Link.tokens (links ++ [⟨t, operator, us, right⟩]))
          (Link.onto tree (links ++ [⟨t, operator, us, right⟩])) :=
        .sum hfirst (List.forall_mem_append.mpr ⟨hjoins, List.forall_mem_singleton.mpr ht⟩)
          (List.forall_mem_append.mpr ⟨hlinks, List.forall_mem_singleton.mpr hright⟩)
      simpa [Link.tokens, Link.onto] using hlonger

theorem Writes.sentence {level : Level} {ts : List Token} {tree : Tree}
    (hwrites : Writes level ts tree) : Sentence level ts tree := by
  induction hwrites with
  | number ht => exact .number ht
  | reference ht => exact .reference ht
  | parens ht hu hinner ih => exact .parens ht hu ih
  | negate ht hoperand ih => exact .negate ht ih
  | @ofFactor ts tree hfactor ih =>
      have hnone : Sentence .product (ts ++ Link.tokens []) (Link.onto tree []) :=
        .product ih (List.forall_mem_nil _) (List.forall_mem_nil _)
      simpa [Link.tokens, Link.onto] using hnone
  | product ht hleft hright ihleft ihright => exact ihleft.product_snoc ht ihright
  | @ofProduct ts tree hproduct ih =>
      have hnone : Sentence .sum (ts ++ Link.tokens []) (Link.onto tree []) :=
        .sum ih (List.forall_mem_nil _) (List.forall_mem_nil _)
      simpa [Link.tokens, Link.onto] using hnone
  | sum ht hleft hright ihleft ihright => exact ihleft.sum_snoc ht ihright

theorem sentence_iff_writes {level : Level} {ts : List Token} {tree : Tree} :
    Sentence level ts tree ↔ Writes level ts tree :=
  ⟨Sentence.writes, Writes.sentence⟩

/-! ## Reading sentences -/

theorem ofTokens_eq_ok_iff {body : List Token} {last : Token} {tree : Tree}
    (hbody : ∀ t ∈ body, t.lexeme ≠ .ending) (hlast : last.lexeme = .ending) :
    Tree.ofTokens (body ++ [last]) = .ok tree ↔ Writes .sum body tree := by
  constructor
  · intro hread
    obtain ⟨used, t, rest, hsplit, ht, hwrites⟩ := Tree.writes_of_ofTokens hread
    -- The sentence stops at the only ending that the tokens have.
    have hfirst : t ∉ body := fun hmem => hbody t hmem ht
    obtain ⟨rfl, -, -⟩ := (List.append_cons_inj_of_notMem hfirst List.not_mem_nil).mp hsplit
    exact hwrites
  · intro hwrites
    exact Tree.ofTokens_of_writes hwrites hlast

/-- Tokens with one ending, at their end, are read just if a sentence stands before it; the tree is
the only one that the sentence has.  Other tokens have one that a fault complains about, and no
token is looked for behind the ending. -/
theorem ofTokens_decides_sentences {body : List Token} {last : Token}
    (hbody : ∀ t ∈ body, t.lexeme ≠ .ending) (hlast : last.lexeme = .ending) :
    (∀ tree, Tree.ofTokens (body ++ [last]) = .ok tree ↔ Sentence .sum body tree) ∧
      (∀ tree tree', Sentence .sum body tree → Sentence .sum body tree' → tree = tree') ∧
      ((∀ tree, ¬ Sentence .sum body tree) →
        ∃ fault, Tree.ofTokens (body ++ [last]) = .error fault ∧
          ∃ t ∈ body ++ [last], fault.Blames t) := by
  refine ⟨fun tree => ?_, fun tree tree' hsentence hsentence' => ?_, fun hnone => ?_⟩
  · rw [ofTokens_eq_ok_iff hbody hlast, sentence_iff_writes]
  · exact hsentence.writes.unique hsentence'.writes
  · cases hread : Tree.ofTokens (body ++ [last]) with
    | ok tree =>
        have hwrites := (ofTokens_eq_ok_iff hbody hlast).mp hread
        exact absurd hwrites.sentence (hnone tree)
    | error fault =>
        have hended : Ended (body ++ [last]) := ⟨body, last, rfl, hlast⟩
        exact ⟨fault, rfl, Tree.blames_of_ofTokens hended hread⟩

/-- The tokens of `-intake.a * (2 - 3 - 1)`. -/
def scaledRest : List Token :=
  [⟨.minus, 0⟩, ⟨.field .intake "a", 1⟩, ⟨.star, 10⟩, ⟨.leftParen, 12⟩, ⟨.number (.int 2), 13⟩,
    ⟨.minus, 15⟩, ⟨.number (.int 3), 17⟩, ⟨.minus, 19⟩, ⟨.number (.int 1), 21⟩, ⟨.rightParen, 22⟩]

/-- Factors bind tighter than differences, and the first difference is taken first. -/
theorem scaledRest_reads :
    (∀ t ∈ scaledRest, t.lexeme ≠ .ending) ∧
      Sentence .sum scaledRest (.binary .times (.negate (.reference ⟨.intake, "a", some 1⟩))
        (.binary .minus (.binary .minus (.number (.int 2)) (.number (.int 3)))
          (.number (.int 1)))) := by
  have hbody : ∀ t ∈ scaledRest, t.lexeme ≠ .ending := by decide
  have hlast : (Token.mk .ending 23).lexeme = .ending := rfl
  have hdecides := ofTokens_decides_sentences hbody hlast
  exact ⟨hbody, (hdecides.1 _).mp (by cbv)⟩

end ModelPlaybook.Expression
