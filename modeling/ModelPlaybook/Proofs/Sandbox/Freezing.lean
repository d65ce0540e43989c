import Mathlib
import ModelPlaybook.Proofs.Sandbox.PlainForm
import ModelPlaybook.Proofs.Value.Signaling

/-!
# Frozen values

Freezing goes through mappings, sequences and sets in any nesting.  What it gives holds nothing that
can be changed, it is its own frozen form, and it has the keys, the items and the elements of the
value that was frozen, in their order.
-/

namespace ModelPlaybook.Value

/-! ## Values as they can be built -/

/-- A value that can be a key or an element of a set: a scalar, or a tuple or a frozen set of such
values.  A signaling NaN can be neither. -/
inductive IsHashable : Value → Prop where
  | scalar {s : Scalar} (hquiet : ∀ n, s.number? = some n → n.isSignaling = false) :
      IsHashable (.scalar s)
  | tuple {items : List Value} (hitems : ∀ x ∈ items, IsHashable x) : IsHashable (.tuple items)
  | frozenSet {items : List Value} (hitems : ∀ x ∈ items, IsHashable x)
      (hdistinct : items.Pairwise fun x y => x.sameKey y = false) : IsHashable (.frozenSet items)

/-- A value built from scalars by mappings, sequences and sets: keys and elements are hashable, and
the elements of a set are distinct. -/
inductive IsBuilt : Value → Prop where
  | scalar (s : Scalar) : IsBuilt (.scalar s)
  | mapping {v : Value} {entries : Entries} (hentries : v.entries? = some entries)
      (hkeys : ∀ entry ∈ entries, entry.1.IsHashable)
      (hvalues : ∀ entry ∈ entries, IsBuilt entry.2) : IsBuilt v
  | sequence {v : Value} {items : List Value} (hitems : v.sequence? = some items)
      (hbuilt : ∀ x ∈ items, IsBuilt x) : IsBuilt v
  | set {v : Value} {items : List Value} (helements : v.elements? = some items)
      (hhashable : ∀ x ∈ items, x.IsHashable)
      (hdistinct : items.Pairwise fun x y => x.sameKey y = false) : IsBuilt v

/-! ## What is found in a frozen value -/

/-- Whether a value can be changed in place. -/
def isMutable : Value → Bool
  | .list _ => true
  | .map _ => true
  | .set _ => true
  | _ => false

/-- A value includes itself and what its parts include: keys, values, items and elements. -/
inductive Includes : Value → Value → Prop where
  | self (v : Value) : Includes v v
  | part {v x u : Value} (hx : x ∈ v.parts) (hu : Includes x u) : Includes v u

/-- A value as freezing gives it. -/
inductive IsFrozen : Value → Prop where
  | scalar (s : Scalar) : IsFrozen (.scalar s)
  | frozenMap {entries : Entries} (hkeys : ∀ entry ∈ entries, entry.1.IsHashable)
      (hvalues : ∀ entry ∈ entries, IsFrozen entry.2) : IsFrozen (.frozenMap entries)
  | tuple {items : List Value} (hitems : ∀ x ∈ items, IsFrozen x) : IsFrozen (.tuple items)
  | frozenSet {items : List Value} (hitems : ∀ x ∈ items, x.IsHashable)
      (hdistinct : items.Pairwise fun x y => x.sameKey y = false) : IsFrozen (.frozenSet items)

theorem IsHashable.isFrozen {v : Value} (hv : v.IsHashable) : v.IsFrozen := by
  induction hv with
  | scalar hquiet => exact .scalar _
  | tuple hitems ih => exact .tuple ih
  | frozenSet hitems hdistinct ih => exact .frozenSet hitems hdistinct

theorem IsFrozen.isMutable_eq {v : Value} (hv : v.IsFrozen) : v.isMutable = false := by
  cases hv <;> rfl

theorem IsFrozen.of_mem_parts {v x : Value} (hv : v.IsFrozen) (hx : x ∈ v.parts) : x.IsFrozen := by
  cases hv with
  | scalar s => simp [parts] at hx
  | frozenMap hkeys hvalues =>
      obtain ⟨entry, hentry, hside⟩ := List.mem_flatMap.mp hx
      simp only [List.mem_cons, List.not_mem_nil, or_false] at hside
      rcases hside with rfl | rfl
      · exact (hkeys entry hentry).isFrozen
      · exact hvalues entry hentry
  | tuple hitems => exact hitems x hx
  | frozenSet hitems hdistinct => exact (hitems x hx).isFrozen

theorem IsFrozen.of_includes {v u : Value} (hv : v.IsFrozen) (hu : v.Includes u) : u.IsFrozen := by
  induction hu with
  | self v => exact hv
  | part hx hu ih => exact ih (hv.of_mem_parts hx)

/-! ## Freezing once and again -/

theorem distinct_eq_self {items : List Value}
    (hdistinct : items.Pairwise fun x y => x.sameKey y = false) : distinct items = items := by
  -- What has been kept and what is still to come is the list that was given.
  suffices hkept : ∀ kept rest : List Value,
      (kept ++ rest).Pairwise (fun x y => x.sameKey y = false) →
      rest.foldl (fun kept v => if kept.any (·.sameKey v) then kept else kept ++ [v]) kept =
        kept ++ rest from hkept [] items hdistinct
  intro kept rest
  induction rest generalizing kept with
  | nil => simp
  | cons v rest ih =>
      intro hpairs
      have hnew : ¬ kept.any (·.sameKey v) = true := by
        have hbetween := (List.pairwise_append.mp hpairs).2.2
        rw [List.any_eq_true]
        rintro ⟨x, hx, hsame⟩
        rw [hbetween x hx v List.mem_cons_self] at hsame
        cases hsame
      have hnext := ih (kept ++ [v]) (by simpa using hpairs)
      rw [List.foldl_cons, if_neg hnew, hnext, List.append_assoc, List.singleton_append]

theorem freezeItems_eq_self {items : List Value} (hitems : ∀ x ∈ items, x.freeze = x) :
    freezeItems items = items := by
  calc
    freezeItems items = items.map freeze := freezeItems_eq_map items
    _ = items.map id := List.map_congr_left hitems
    _ = items := List.map_id items

theorem IsHashable.freeze_eq {v : Value} (hv : v.IsHashable) : v.freeze = v := by
  induction hv with
  | scalar hquiet => rfl
  | tuple hitems ih => rw [freeze, freezeItems_eq_self ih]
  | frozenSet hitems hdistinct ih =>
      rw [freeze, freezeItems_eq_self ih, distinct_eq_self hdistinct]

theorem freeze_of_elements {v : Value} {items : List Value} (helements : v.elements? = some items)
    (hhashable : ∀ x ∈ items, x.IsHashable)
    (hdistinct : items.Pairwise fun x y => x.sameKey y = false) : v.freeze = .frozenSet items := by
  have hsame : distinct (freezeItems items) = items := by
    rw [freezeItems_eq_self fun x hx => (hhashable x hx).freeze_eq, distinct_eq_self hdistinct]
  cases v <;> cases helements <;> rw [freeze, hsame]

theorem freeze_of_sequence {v : Value} {items : List Value} (hitems : v.sequence? = some items) :
    v.freeze = .tuple (items.map freeze) := by
  cases v <;> cases hitems <;> rw [freeze, freezeItems_eq_map]

theorem freeze_of_entries {v : Value} {entries : Entries} (hentries : v.entries? = some entries) :
    v.freeze = .frozenMap (entries.map fun entry => (entry.1, entry.2.freeze)) := by
  cases v <;> cases hentries <;> rw [freeze, freezeEntries_eq_map]

theorem IsFrozen.freeze_eq {v : Value} (hv : v.IsFrozen) : v.freeze = v := by
  induction hv with
  | scalar s => rfl
  | @frozenMap entries hkeys hvalues ih =>
      have hsame : entries.map (fun entry => (entry.1, entry.2.freeze)) = entries.map id := by
        refine List.map_congr_left fun entry hentry => ?_
        rw [ih entry hentry]
        rfl
      rw [freeze_of_entries rfl, hsame, List.map_id]
  | tuple hitems ih => rw [freeze, freezeItems_eq_self ih]
  | frozenSet hitems hdistinct => exact freeze_of_elements rfl hitems hdistinct

theorem IsBuilt.isFrozen_freeze {v : Value} (hv : v.IsBuilt) : v.freeze.IsFrozen := by
  induction hv with
  | scalar s => exact .scalar s
  | mapping hentries hkeys hvalues ih =>
      rw [freeze_of_entries hentries]
      exact .frozenMap (List.forall_mem_map.mpr hkeys) (List.forall_mem_map.mpr ih)
  | sequence hitems hbuilt ih =>
      rw [freeze_of_sequence hitems]
      exact .tuple (List.forall_mem_map.mpr ih)
  | set helements hhashable hdistinct =>
      rw [freeze_of_elements helements hhashable hdistinct]
      exact .frozenSet hhashable hdistinct

/-! ## What is kept -/

/-- Two values have the same scalars, keys, items and elements in the same places, whether or not
they can be changed. -/
inductive SameContent : Value → Value → Prop where
  | scalar (s : Scalar) : SameContent (.scalar s) (.scalar s)
  | mapping {v w : Value} {entries entries' : Entries} (hv : v.entries? = some entries)
      (hw : w.entries? = some entries') (hkeys : entries.map Prod.fst = entries'.map Prod.fst)
      (hvalues : List.Forall₂ SameContent (entries.map Prod.snd) (entries'.map Prod.snd)) :
      SameContent v w
  | sequence {v w : Value} {items items' : List Value} (hv : v.sequence? = some items)
      (hw : w.sequence? = some items') (hitems : List.Forall₂ SameContent items items') :
      SameContent v w
  | set {v w : Value} {items : List Value} (hv : v.elements? = some items)
      (hw : w.elements? = some items) : SameContent v w

theorem IsBuilt.sameContent_freeze {v : Value} (hv : v.IsBuilt) : v.SameContent v.freeze := by
  induction hv with
  | scalar s => exact .scalar s
  | @mapping v entries hentries hkeys hvalues ih =>
      refine .mapping hentries (by rw [freeze_of_entries hentries]; rfl) (by simp) ?_
      rw [List.map_map, List.forall₂_map_left_iff, List.forall₂_map_right_iff, List.forall₂_same]
      exact ih
  | @sequence v items hitems hbuilt ih =>
      refine .sequence hitems (by rw [freeze_of_sequence hitems]; rfl) ?_
      rw [List.forall₂_map_right_iff, List.forall₂_same]
      exact ih
  | set helements hhashable hdistinct =>
      refine .set helements ?_
      rw [freeze_of_elements helements hhashable hdistinct]
      rfl

/-- A frozen value holds nothing that can be changed, is its own frozen form, and has the content of
the value that was frozen. -/
theorem freeze_deep {v : Value} (hv : v.IsBuilt) :
    (∀ u, v.freeze.Includes u → u.isMutable = false) ∧
      v.freeze.freeze = v.freeze ∧ v.SameContent v.freeze := by
  have hfrozen := hv.isFrozen_freeze
  refine ⟨?_, hfrozen.freeze_eq, hv.sameContent_freeze⟩
  intro u hu
  exact (hfrozen.of_includes hu).isMutable_eq

/-- Every kind of container inside another one, with a tuple for a key. -/
def nesting : Value :=
  .map [(.tuple [.int 1, .text "a"],
    .list [.set [.frozenSet [.int 1], .tuple [.none]], .frozenMap [(.none, .tuple [.list []])]])]

theorem nesting_isBuilt : nesting.IsBuilt := by
  have hnone : Value.none.IsHashable := .scalar (by simp [Scalar.number?])
  have hone : (Value.int 1).IsHashable := .scalar (by simp [Scalar.number?, Number.isSignaling])
  have htext : (Value.text "a").IsHashable := .scalar (by simp [Scalar.number?])
  have hkey : (Value.tuple [.int 1, .text "a"]).IsHashable := .tuple (by simp [hone, htext])
  have hset : (Value.set [.frozenSet [.int 1], .tuple [.none]]).IsBuilt := by
    have hfirst : (Value.frozenSet [.int 1]).IsHashable :=
      .frozenSet (by simp [hone]) (List.pairwise_singleton _ _)
    have hsecond : (Value.tuple [.none]).IsHashable := .tuple (by simp [hnone])
    exact .set rfl (by simp [hfirst, hsecond]) (by decide)
  have hempty : (Value.list []).IsBuilt := .sequence rfl (by simp)
  have htuple : (Value.tuple [.list []]).IsBuilt := .sequence rfl (by simp [hempty])
  have hinner : (Value.frozenMap [(.none, .tuple [.list []])]).IsBuilt :=
    .mapping rfl (by simp [hnone]) (by simp [htuple])
  have hlist : (Value.list [.set [.frozenSet [.int 1], .tuple [.none]],
      .frozenMap [(.none, .tuple [.list []])]]).IsBuilt := .sequence rfl (by simp [hset, hinner])
  exact .mapping rfl (by simp [hkey]) (by simp [hlist])

theorem nesting_frozen :
    nesting.IsBuilt ∧
      nesting.freeze = .frozenMap [(.tuple [.int 1, .text "a"],
        .tuple [.frozenSet [.frozenSet [.int 1], .tuple [.none]],
          .frozenMap [(.none, .tuple [.tuple []])]])] ∧
      (∀ u, nesting.freeze.Includes u → u.isMutable = false) ∧
      nesting.freeze.freeze = nesting.freeze ∧ nesting.SameContent nesting.freeze :=
  ⟨nesting_isBuilt, by decide, freeze_deep nesting_isBuilt⟩

end ModelPlaybook.Value
