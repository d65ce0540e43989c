import ModelPlaybook.Proofs.Yaml.Scanning
import ModelPlaybook.Yaml.Node

/-!
# What composing lets out

Nodes are made of tokens.  Where the tokens do not make a document, the text is malformed; a misfit
can only come from the tokens, which end where scanning has failed.
-/

namespace ModelPlaybook.Yaml

/-- A reader of nodes fails with no misfit of its own, only with the one that ended the tokens, and
it does not change what ended them. -/
def Relays {α : Type} (x : Composing α) : Prop :=
  ∀ s, (∀ a s', x.run s = .ok (a, s') → s'.failure = s.failure) ∧
    ∀ fault, x.run s = .error (.misfit fault) → s.failure = .misfit fault

namespace Relays

variable {α β : Type}

theorem pure (a : α) : Relays (Pure.pure a) := by
  intro s
  constructor
  · intro a' s' h
    cases h
    rfl
  · intro fault h
    cases h

theorem bind {x : Composing α} {f : α → Composing β} (hx : Relays x) (hf : ∀ a, Relays (f a)) :
    Relays (x >>= f) := by
  intro s
  constructor
  · intro b s' h
    rw [StateT.run_bind] at h
    obtain ⟨⟨a, middle⟩, hrun, h⟩ := bind_eq_ok.mp h
    have hkept := (hf a middle).1 b s' h
    rw [hkept]
    exact (hx s).1 a middle hrun
  · intro fault h
    rw [StateT.run_bind] at h
    rcases bind_eq_error.mp h with h | ⟨⟨a, middle⟩, hrun, h⟩
    · exact (hx s).2 fault h
    · rw [← (hx s).1 a middle hrun]
      exact (hf a middle).2 fault h

theorem fail (problem : Problem) : Relays (Composing.fail problem : Composing α) := by
  intro s
  constructor
  · intro a s' h
    cases h
  · intro fault h
    cases h

theorem get : Relays (MonadState.get : Composing Composer) := by
  intro s
  constructor
  · intro a s' h
    cases h
    rfl
  · intro fault h
    cases h

theorem update {f : Composer → Composer} (hf : ∀ s, (f s).failure = s.failure) :
    Relays (modify f : Composing Unit) := by
  intro s
  constructor
  · intro a s' h
    cases h
    exact hf s
  · intro fault h
    cases h

theorem ite {c : Prop} [Decidable c] {x y : Composing α} (hx : Relays x) (hy : Relays y) :
    Relays (if c then x else y) := by
  split
  · exact hx
  · exact hy

end Relays

namespace Composing

theorem run_peek (s : Composer) :
    peek.run s =
      match s.rest with
      | t :: _ => .ok (t, s)
      | [] => .error s.failure := by
  cases hrest : s.rest with
  | nil =>
      simp only [peek, StateT.run_bind, StateT.run_get, pure_bind, hrest]
      rfl
  | cons t rest =>
      simp only [peek, StateT.run_bind, StateT.run_get, pure_bind, hrest]
      rfl

theorem relays_peek : Relays peek := by
  intro s
  rw [run_peek]
  cases hrest : s.rest with
  | nil =>
      constructor
      · intro a s' h
        cases h
      · intro fault h
        injection h
  | cons t rest =>
      constructor
      · intro a s' h
        cases h
        rfl
      · intro fault h
        cases h

theorem relays_skip : Relays skip :=
  .update fun _ => rfl

theorem relays_accept (t : Token) : Relays (accept t) :=
  relays_peek.bind fun _ => .ite (relays_skip.bind fun _ => .pure _) (.pure _)

theorem relays_isNext (ts : List Token) : Relays (isNext ts) :=
  relays_peek.bind fun _ => .pure _

/-! ## Anchors and tags -/

theorem relays_tagName (t : TagText) : Relays (tagName t) := by
  unfold tagName
  split
  · exact .pure _
  · refine Relays.get.bind fun s => ?_
    split
    · exact .pure _
    · exact .fail _

theorem relays_anchor? : Relays anchor? := by
  refine relays_peek.bind fun t => ?_
  split
  · exact relays_skip.bind fun _ => .pure _
  · exact .pure _

theorem relays_tag? : Relays tag? := by
  refine relays_peek.bind fun t => ?_
  split
  · exact relays_skip.bind fun _ => .pure _
  · exact .pure _

theorem relays_properties : Relays properties := by
  have hname : ∀ found : Option String × Option TagText, Relays (do
      pure (found.1, ← found.2.mapM tagName)) := by
    rintro ⟨anchor, _ | tag⟩
    · exact .pure _
    · exact (Relays.bind (relays_tagName tag) fun _ => .pure _).bind fun _ => .pure _
  refine relays_anchor?.bind fun anchor => ?_
  split
  · exact relays_tag?.bind fun _ => hname (_, _)
  · refine relays_tag?.bind fun tag => ?_
    split
    · exact relays_anchor?.bind fun _ => hname (_, some _)
    · exact hname (none, none)

theorem relays_resolve (name : String) : Relays (resolve name) := by
  refine Relays.get.bind fun s => ?_
  split
  · refine Relays.bind (.update ?_) fun _ => .pure _
    intro s
    rfl
  · exact .pure _
  · exact .fail _

theorem relays_declare (anchor : Option String) (tag : Tag) : Relays (declare anchor tag) := by
  unfold declare
  split
  · exact .pure _
  · exact Relays.get.bind fun s => .ite (.fail _) (.update fun _ => rfl)

theorem relays_complete (anchor : Option String) (made : Node) : Relays (complete anchor made) := by
  unfold complete
  split
  · exact .pure _
  · refine Relays.get.bind fun s => .ite ?_ ?_
    · refine Relays.bind (.update ?_) fun _ => .pure _
      intro s
      rfl
    · refine Relays.bind (.update ?_) fun _ => .pure _
      intro s
      rfl

/-! ## Nodes -/

/-- The mutual readers of nodes with some fuel. -/
structure NodesRelay (fuel : Nat) : Prop where
  node : ∀ place : Place, Relays (node place fuel)
  nodeUnless : ∀ (place : Place) (ends : List Token), Relays (nodeUnless place ends fuel)
  blockItems : Relays (blockItems fuel)
  looseItems : Relays (looseItems fuel)
  entryValue : ∀ (place : Place) (ends : List Token), Relays (entryValue place ends fuel)
  blockEntries : Relays (blockEntries fuel)
  flowItems : ∀ first : Bool, Relays (flowItems first fuel)
  flowEntries : ∀ first : Bool, Relays (flowEntries first fuel)

theorem relays_emptyOrFail (anchor tag : Option String) : Relays (node.emptyOrFail anchor tag) :=
  .ite ((relays_declare _ _).bind fun _ => relays_complete _ _) (.fail _)

namespace NodesRelay

variable {fuel : Nat}

theorem zero : NodesRelay 0 where
  node _ := .fail _
  nodeUnless _ _ := .fail _
  blockItems := .fail _
  looseItems := .fail _
  entryValue _ _ := .fail _
  blockEntries := .fail _
  flowItems _ := .fail _
  flowEntries _ := .fail _

variable (h : NodesRelay fuel)

include h

theorem node_succ (place : Place) : Relays (Composing.node place (fuel + 1)) := by
  have hcollection : ∀ {α : Type} (anchor : Option String) (tag : Tag) (content : Composing α)
      (make : α → Node), Relays content → Relays (do
        declare anchor tag
        complete anchor (make (← content))) := by
    intro α anchor tag content make hcontent
    exact (relays_declare _ _).bind fun _ => hcontent.bind fun _ => relays_complete _ _
  have hscalar : ∀ (anchor : Option String) (tag : Tag) (text : String), Relays (do
      declare anchor tag
      complete anchor (.scalar tag text)) := by
    intro anchor tag text
    exact (relays_declare _ _).bind fun _ => relays_complete _ _
  unfold Composing.node
  refine relays_peek.bind fun t => ?_
  split
  · exact relays_skip.bind fun _ => relays_resolve _
  · refine relays_properties.bind ?_
    rintro ⟨anchor, tag⟩
    refine relays_peek.bind fun t => ?_
    dsimp only
    split
    · refine .ite (hcollection _ _ _ _ h.looseItems) (.ite (hscalar _ _ _) (.fail _))
    · exact relays_skip.bind fun _ => hscalar _ _ _
    · exact relays_skip.bind fun _ => hcollection _ _ _ _ (h.flowItems _)
    · exact relays_skip.bind fun _ => hcollection _ _ _ _ (h.flowEntries _)
    · refine .ite (relays_emptyOrFail _ _) ?_
      exact relays_skip.bind fun _ => hcollection _ _ _ _ h.blockItems
    · refine .ite (relays_emptyOrFail _ _) ?_
      exact relays_skip.bind fun _ => hcollection _ _ _ _ h.blockEntries
    · exact relays_emptyOrFail _ _

theorem nodeUnless_succ (place : Place) (ends : List Token) :
    Relays (Composing.nodeUnless place ends (fuel + 1)) :=
  (relays_isNext _).bind fun _ => .ite (.pure _) (h.node _)

theorem blockItems_succ : Relays (Composing.blockItems (fuel + 1)) := by
  refine (relays_accept _).bind fun _ => .ite ?_ ?_
  · exact (h.nodeUnless _ _).bind fun _ => h.blockItems.bind fun _ => .pure _
  · exact (relays_accept _).bind fun _ => .ite (.pure _) (.fail _)

theorem looseItems_succ : Relays (Composing.looseItems (fuel + 1)) := by
  refine (relays_accept _).bind fun _ => .ite ?_ (.pure _)
  exact (h.nodeUnless _ _).bind fun _ => h.looseItems.bind fun _ => .pure _

theorem entryValue_succ (place : Place) (ends : List Token) :
    Relays (Composing.entryValue place ends (fuel + 1)) :=
  (relays_accept _).bind fun _ => .ite (h.nodeUnless _ _) (.pure _)

theorem blockEntries_succ : Relays (Composing.blockEntries (fuel + 1)) := by
  refine (relays_accept _).bind fun _ => .ite ?_ ?_
  · exact (h.nodeUnless _ _).bind fun _ => (h.entryValue _ _).bind fun _ =>
      h.blockEntries.bind fun _ => .pure _
  · exact (relays_accept _).bind fun _ => .ite (.pure _) (.fail _)

theorem flowItems_succ (first : Bool) : Relays (Composing.flowItems first (fuel + 1)) := by
  -- An item is read in three places: as the first one, behind a comma, and where a comma is
  -- missing.
  have hitem : Relays (do
      if ← accept .key then
        let key ← Composing.nodeUnless .flow [.value, .flowEntry, .flowSequenceEnd] fuel
        let value ← Composing.entryValue .flow [.flowEntry, .flowSequenceEnd] fuel
        pure (.mapping .mapping [(key, value)] :: (← Composing.flowItems false fuel))
      else if ← accept .flowSequenceEnd then pure []
      else
        let item ← Composing.node .flow fuel
        pure (item :: (← Composing.flowItems false fuel))) := by
    refine (relays_accept _).bind fun _ => .ite ?_ ?_
    · exact (h.nodeUnless _ _).bind fun _ => (h.entryValue _ _).bind fun _ =>
        (h.flowItems _).bind fun _ => .pure _
    · refine (relays_accept _).bind fun _ => .ite (.pure _) ?_
      exact (h.node _).bind fun _ => (h.flowItems _).bind fun _ => .pure _
  unfold Composing.flowItems
  refine (relays_accept _).bind fun _ => .ite (.pure _) (.ite ?_ hitem)
  exact (relays_accept _).bind fun _ => .ite ((Relays.fail _).bind fun _ => hitem) hitem

theorem flowEntries_succ (first : Bool) : Relays (Composing.flowEntries first (fuel + 1)) := by
  have hentry : Relays (do
      if ← accept .key then
        let key ← Composing.nodeUnless .flow [.value, .flowEntry, .flowMappingEnd] fuel
        let value ← Composing.entryValue .flow [.flowEntry, .flowMappingEnd] fuel
        pure ((key, value) :: (← Composing.flowEntries false fuel))
      else if ← accept .flowMappingEnd then pure []
      else
        let key ← Composing.node .flow fuel
        pure ((key, .empty) :: (← Composing.flowEntries false fuel))) := by
    refine (relays_accept _).bind fun _ => .ite ?_ ?_
    · exact (h.nodeUnless _ _).bind fun _ => (h.entryValue _ _).bind fun _ =>
        (h.flowEntries _).bind fun _ => .pure _
    · refine (relays_accept _).bind fun _ => .ite (.pure _) ?_
      exact (h.node _).bind fun _ => (h.flowEntries _).bind fun _ => .pure _
  unfold Composing.flowEntries
  refine (relays_accept _).bind fun _ => .ite (.pure _) (.ite ?_ hentry)
  exact (relays_accept _).bind fun _ => .ite ((Relays.fail _).bind fun _ => hentry) hentry

theorem succ : NodesRelay (fuel + 1) where
  node := h.node_succ
  nodeUnless := h.nodeUnless_succ
  blockItems := h.blockItems_succ
  looseItems := h.looseItems_succ
  entryValue := h.entryValue_succ
  blockEntries := h.blockEntries_succ
  flowItems := h.flowItems_succ
  flowEntries := h.flowEntries_succ

end NodesRelay

end Composing

end ModelPlaybook.Yaml
