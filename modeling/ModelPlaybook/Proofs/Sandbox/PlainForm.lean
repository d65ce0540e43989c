import ModelPlaybook.Proofs.Sandbox.Plain

/-!
# Plain forms

A plain form is made of scalars, lists, and mappings with text keys.  It is its own plain form, and
it comes back from its frozen form: freezing makes tuples of lists and read-only mappings of
mappings, which plain forms undo, and neither loses a key, an item or their order.
-/

namespace ModelPlaybook

inductive Value.IsPlainForm : Value → Prop where
  | scalar (s : Scalar) : IsPlainForm (.scalar s)
  | list {items : List Value} (hitems : ∀ v ∈ items, IsPlainForm v) : IsPlainForm (.list items)
  | map {entries : Entries} (hkeys : ∀ entry ∈ entries, ∃ name, entry.1 = .text name)
      (hvalues : ∀ entry ∈ entries, IsPlainForm entry.2) : IsPlainForm (.map entries)

namespace Cargo

/-! ## Plain forms are what comes out -/

theorem ascends_isPlainForm : Ascends fun _ w => w.IsPlainForm where
  scalar s := .scalar s
  sequence hys := .list (forall_mem_of_forall₂ hys.flip fun _ _ h => h)
  mapping htexts hkeys hvalues := by
    rw [hkeys, List.forall_mem_map] at htexts
    have hright := forall_mem_of_forall₂ hvalues.flip fun _ _ h => h
    exact .map htexts (List.forall_mem_map.mp hright)

theorem isPlainForm_of_toPlain {path : String} {c : Cargo} {w : Value}
    (hplain : c.toPlain path = .ok w) : w.IsPlainForm :=
  ascends_isPlainForm.of_toPlain hplain

/-! ## There and back -/

/-- Items that come back one by one come back together. -/
theorem plainItems_map {f : Value → Cargo} {items : List Value}
    (hitems : ∀ v ∈ items, ∀ path, (f v).toPlain path = .ok v) (path : String) (index : Nat) :
    plainItems path index (items.map f) = .ok items := by
  induction items generalizing index with
  | nil => rfl
  | cons x xs ih =>
      obtain ⟨hx, hxs⟩ := List.forall_mem_cons.mp hitems
      have hfirst := hx (itemPath path index)
      have hrest := ih hxs (index + 1)
      exact bind_eq_ok.mpr ⟨x, hfirst, bind_eq_ok.mpr ⟨xs, hrest, rfl⟩⟩

theorem plainEntries_map {f : Value → Cargo} {entries : Entries}
    (hkeys : ∀ entry ∈ entries, ∃ name, entry.1 = .text name)
    (hvalues : ∀ entry ∈ entries, ∀ path, (f entry.2).toPlain path = .ok entry.2) (path : String) :
    plainEntries path (entries.map fun entry => (entry.1, f entry.2)) = .ok entries := by
  induction entries with
  | nil => rfl
  | cons entry rest ih =>
      obtain ⟨k, v⟩ := entry
      obtain ⟨⟨name, hkey⟩, hkeysRest⟩ := List.forall_mem_cons.mp hkeys
      obtain ⟨hvalue, hvaluesRest⟩ := List.forall_mem_cons.mp hvalues
      obtain rfl : k = .text name := hkey
      have hfirst := hvalue (entryPath path name)
      have hrest := ih hkeysRest hvaluesRest
      exact bind_eq_ok.mpr ⟨v, hfirst, bind_eq_ok.mpr ⟨rest, hrest, rfl⟩⟩

theorem getElem?_of_plainEntries {path : String} {entries : List (Value × Cargo)}
    {plains : Entries} {k : Nat} {key : Value} {c : Cargo}
    (hplain : plainEntries path entries = .ok plains) (hentry : entries[k]? = some (key, c)) :
    ∃ path' w, c.toPlain path' = .ok w ∧ plains[k]? = some (key, w) := by
  induction entries generalizing plains k with
  | nil => simp at hentry
  | cons entry rest ih =>
      obtain ⟨first, u⟩ := entry
      rw [plainEntries] at hplain
      split at hplain
      next name hname =>
        obtain ⟨w, hw, hplain⟩ := bind_eq_ok.mp hplain
        obtain ⟨more, hmore, hplains⟩ := bind_eq_ok.mp hplain
        cases hplains
        cases k with
        | zero =>
            cases hentry
            exact ⟨_, w, hw, rfl⟩
        | succ k =>
            have hlater := ih hmore hentry
            exact hlater
      next => cases hplain

end Cargo

namespace Value

theorem isPlainForm_of_toPlain {path : String} {v w : Value} (hplain : v.toPlain path = .ok w) :
    w.IsPlainForm :=
  Cargo.isPlainForm_of_toPlain hplain

theorem IsPlainForm.get? {entries : Entries} (hplain : (Value.map entries).IsPlainForm)
    {name : String} {v : Value} (hfound : entries.get? name = some v) :
    v.IsPlainForm := by
  obtain ⟨entry, hentry, rfl⟩ := Option.map_eq_some_iff.mp hfound
  cases hplain with
  | map hkeys hvalues => exact hvalues entry (List.mem_of_find?_eq_some hentry)

theorem freezeItems_eq_map (items : List Value) : freezeItems items = items.map freeze := by
  induction items with
  | nil => rfl
  | cons x xs ih => simp only [freezeItems, ih, List.map_cons]

theorem freezeEntries_eq_map (entries : Entries) :
    freezeEntries entries = entries.map fun entry => (entry.1, entry.2.freeze) := by
  induction entries with
  | nil => rfl
  | cons entry rest ih => simp only [freezeEntries, ih, List.map_cons]

theorem IsPlainForm.toPlain_self {w : Value} (hw : w.IsPlainForm) (path : String) :
    w.toPlain path = .ok w := by
  induction hw generalizing path with
  | scalar s => rfl
  | @list items hitems ih =>
      have hsame := Cargo.plainItems_map ih path 0
      rw [← Cargo.ofItems_eq_map] at hsame
      exact Cargo.toPlain_sequence_eq_ok.mpr ⟨rfl, items, hsame, rfl⟩
  | @map entries hkeys hvalues ih =>
      have hsame := Cargo.plainEntries_map hkeys ih path
      rw [← Cargo.ofEntries_eq_map] at hsame
      exact Cargo.toPlain_mapping_eq_ok.mpr ⟨rfl, entries, hsame, rfl⟩

/-- A plain form is the plain form of its frozen form. -/
theorem IsPlainForm.toPlain_freeze {w : Value} (hw : w.IsPlainForm) (path : String) :
    w.freeze.toPlain path = .ok w := by
  induction hw generalizing path with
  | scalar s => rfl
  | @list items hitems ih =>
      have hback := Cargo.plainItems_map (f := fun v => Cargo.ofValue v.freeze) ih path 0
      have hparts : Cargo.ofItems (freezeItems items) =
          items.map fun v => Cargo.ofValue v.freeze := by
        rw [freezeItems_eq_map, Cargo.ofItems_eq_map, List.map_map]
        rfl
      rw [← hparts] at hback
      exact Cargo.toPlain_sequence_eq_ok.mpr ⟨rfl, items, hback, rfl⟩
  | @map entries hkeys hvalues ih =>
      have hback := Cargo.plainEntries_map (f := fun v => Cargo.ofValue v.freeze) hkeys ih path
      have hparts : Cargo.ofEntries (freezeEntries entries) =
          entries.map fun entry => (entry.1, Cargo.ofValue entry.2.freeze) := by
        rw [freezeEntries_eq_map, Cargo.ofEntries_eq_map, List.map_map]
        rfl
      rw [← hparts] at hback
      exact Cargo.toPlain_mapping_eq_ok.mpr ⟨rfl, entries, hback, rfl⟩

/-! ## Entries in their places -/

/-- The entry of a mapping at a place. -/
def entryAt? (v : Value) (k : Nat) : Option (Value × Value) :=
  (v.entries?.getD [])[k]?

/-- An entry whose value is a plain form is left as it is. -/
theorem entryAt?_of_toPlain {path : String} {entries : Entries} {plain : Value} {k : Nat}
    {key v : Value} (hplain : (Value.map entries).toPlain path = .ok plain)
    (hentry : entries[k]? = some (key, v)) (hv : v.IsPlainForm) :
    plain.entryAt? k = some (key, v) ∧ plain.freeze.entryAt? k = some (key, v.freeze) := by
  obtain ⟨-, plains, hplains, rfl⟩ := Cargo.toPlain_mapping_eq_ok.mp hplain
  have hmet : (Cargo.ofEntries entries)[k]? = some (key, Cargo.ofValue v) := by
    rw [Cargo.ofEntries_eq_map, List.getElem?_map, hentry]
    rfl
  obtain ⟨path', w, hw, hplace⟩ := Cargo.getElem?_of_plainEntries hplains hmet
  have hsame : v.toPlain path' = .ok v := hv.toPlain_self path'
  obtain rfl := Except.ok.inj (hsame.symm.trans hw)
  refine ⟨hplace, ?_⟩
  simp only [entryAt?, freeze, entries?, Option.getD_some, freezeEntries_eq_map, List.getElem?_map,
    hplace, Option.map_some]

end Value

end ModelPlaybook
