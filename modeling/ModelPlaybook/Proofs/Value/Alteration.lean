import Mathlib
import ModelPlaybook.Proofs.Value.Lookup
import ModelPlaybook.Schema.Field

/-!
# Entries that differ under one name

Two lists of entries have the same keys and the same values, except for the values under one name.
Whatever looks at other names only finds no difference.
-/

namespace ModelPlaybook

theorem Value.text_sameKey (name : String) (key : Value) :
    (Value.text name).sameKey key = (key.text? == some name) := by
  cases key with
  | scalar a =>
      cases a with
      | text s =>
          have hequal : (Value.text name).sameKey (.text s) = (name == s) := rfl
          rw [hequal, BEq.comm]
          rfl
      | none | bool b | int n | float x | decimal d | date d | dateTime t | duration d => rfl
  | foreign typeName origin => cases origin <;> rfl
  | list items | tuple items | map items | frozenMap items | set items | frozenSet items => rfl
  | bytes content => rfl
  | derived expression => rfl

theorem Value.text_sameKey_iff {key : Value} {name : String} :
    (Value.text name).sameKey key = true ↔ key = .text name := by
  rw [text_sameKey]
  constructor
  · intro hsame
    exact eq_text_of_text? (eq_of_beq hsame)
  · rintro rfl
    simp [text?]

namespace Entries

/-- The same keys, and the same values except under one name. -/
inductive SameBut (name : String) : Entries → Entries → Prop where
  | nil : SameBut name [] []
  | cons {key v v' : Value} {rest rest' : Entries} (hv : key ≠ .text name → v = v')
      (hrest : SameBut name rest rest') : SameBut name ((key, v) :: rest) ((key, v') :: rest')

variable {name other : String} {entries entries' : Entries}

theorem sameBut_refl (name : String) (entries : Entries) : SameBut name entries entries := by
  induction entries with
  | nil => exact .nil
  | cons entry rest ih => exact .cons (fun _ => rfl) ih

namespace SameBut

theorem append (h : SameBut name entries entries') {more more' : Entries}
    (hmore : SameBut name more more') : SameBut name (entries ++ more) (entries' ++ more') := by
  induction h with
  | nil => exact hmore
  | cons hv _ ih => exact .cons hv ih

theorem any_sameKey (h : SameBut name entries entries') (key : Value) :
    entries.any (fun entry => entry.1.sameKey key) =
      entries'.any fun entry => entry.1.sameKey key := by
  induction h with
  | nil => rfl
  | cons _ _ ih => simp only [List.any_cons, ih]

theorem replace (h : SameBut name entries entries') {key v v' : Value}
    (hv : key ≠ .text name → v = v') :
    SameBut name (entries.map fun entry => if entry.1.sameKey key then (entry.1, v) else entry)
      (entries'.map fun entry => if entry.1.sameKey key then (entry.1, v') else entry) := by
  induction h with
  | nil => exact .nil
  | @cons known w w' rest rest' hw _ ih =>
      rw [List.map_cons, List.map_cons]
      by_cases hsame : known.sameKey key = true
      · rw [if_pos hsame, if_pos hsame]
        refine .cons (fun hother => hv ?_) ih
        rintro rfl
        exact hother (Value.sameKey_text_iff.mp hsame)
      · rw [if_neg hsame, if_neg hsame]
        exact .cons hw ih

theorem put (h : SameBut name entries entries') {key v v' : Value}
    (hv : key ≠ .text name → v = v') :
    SameBut name (entries.put key v) (entries'.put key v') := by
  unfold Entries.put
  rw [← h.any_sameKey key]
  by_cases hthere : entries.any (fun entry => entry.1.sameKey key) = true
  · rw [if_pos hthere, if_pos hthere]
    exact h.replace hv
  · rw [if_neg hthere, if_neg hthere]
    exact h.append (.cons hv .nil)

theorem foldl_put {pairs pairs' : Entries} (hpairs : SameBut name pairs pairs')
    (h : SameBut name entries entries') :
    SameBut name (pairs.foldl (fun entries (key, value) => entries.put key value) entries)
      (pairs'.foldl (fun entries (key, value) => entries.put key value) entries') := by
  induction hpairs generalizing entries entries' with
  | nil => exact h
  | cons hv _ ih => exact ih (h.put hv)

theorem ofPairs {pairs pairs' : Entries} (h : SameBut name pairs pairs') :
    SameBut name (Entries.ofPairs pairs) (Entries.ofPairs pairs') :=
  foldl_put h .nil

theorem get?_eq (h : SameBut name entries entries') (hother : other ≠ name) :
    entries'.get? other = entries.get? other := by
  induction h with
  | nil => rfl
  | @cons key v v' rest rest' hv _ ih =>
      rw [get?_cons, get?_cons, ih]
      by_cases hkey : key = .text other
      · rw [if_pos hkey, if_pos hkey, hv (by simpa [hkey] using hother)]
      · rw [if_neg hkey, if_neg hkey]

end SameBut

/-- What is put under another key does not change what stands under a name. -/
theorem get?_put_of_ne (entries : Entries) {key : Value} (hkey : key ≠ .text name) (v : Value) :
    (entries.put key v).get? name = entries.get? name := by
  unfold put
  by_cases hthere : entries.any (fun entry => entry.1.sameKey key) = true
  · rw [if_pos hthere]
    clear hthere
    induction entries with
    | nil => rfl
    | cons entry rest ih =>
        obtain ⟨known, w⟩ := entry
        rw [List.map_cons]
        by_cases hsame : known.sameKey key = true
        · have hknown : known ≠ .text name := by
            rintro rfl
            exact hkey (Value.text_sameKey_iff.mp hsame)
          rw [if_pos hsame, get?_cons, get?_cons, if_neg hknown, if_neg hknown, ih]
        · rw [if_neg hsame, get?_cons, get?_cons, ih]
  · rw [if_neg hthere, get?_append, get?_cons, if_neg hkey]
    exact Option.or_none

/-- The last value under a name is the one that counts. -/
theorem get?_ofPairs_of_last {before after : Entries} {v : Value}
    (hafter : ∀ entry ∈ after, entry.1 ≠ .text name) :
    (ofPairs (before ++ (.text name, v) :: after)).get? name = some v := by
  have hkept (entries : Entries) :
      (after.foldl (fun entries (key, value) => entries.put key value) entries).get? name =
        entries.get? name := by
    induction after generalizing entries with
    | nil => rfl
    | cons entry rest ih =>
        obtain ⟨hentry, hrest⟩ := List.forall_mem_cons.mp hafter
        rw [List.foldl_cons, ih hrest, get?_put_of_ne _ hentry]
  unfold ofPairs
  rw [List.foldl_append, List.foldl_cons, hkept, get?_put, if_pos rfl]

end Entries

/-! ## Fields -/

namespace Schema

open Entries

variable {name : String} {entries entries' : Entries} {α : Type}

theorem claim?_of_sameBut (h : SameBut name entries entries') {keys : List String}
    (hkeys : name ∉ keys) : claim? entries' keys = claim? entries keys := by
  unfold claim?
  induction keys with
  | nil => rfl
  | cons key keys ih =>
      obtain ⟨hkey, hkeys⟩ := not_or.mp (mt List.mem_cons.mpr hkeys)
      rw [List.findSome?_cons, List.findSome?_cons, h.get?_eq (Ne.symm hkey), ih hkeys]

theorem required_of_sameBut (h : SameBut name entries entries') {keys : List String}
    (hkeys : name ∉ keys) (check : Value → Checked α) :
    required entries' keys check = required entries keys check := by
  rw [required, required, claim?_of_sameBut h hkeys]

theorem withDefault_of_sameBut (h : SameBut name entries entries') {key : String}
    (hkey : key ≠ name) (absent : α) (check : Value → Checked α) :
    withDefault entries' key absent check = withDefault entries key absent check := by
  rw [withDefault, withDefault, h.get?_eq hkey]

theorem hasTextKeys_of_sameBut (h : SameBut name entries entries') :
    hasTextKeys entries' = hasTextKeys entries := by
  unfold hasTextKeys
  induction h with
  | nil => rfl
  | cons _ _ ih => simp only [List.all_cons, ih]

/-- What no field claims is the same, as long as the name is claimed. -/
theorem unclaimed_of_sameBut (h : SameBut name entries entries') {claimed : List String}
    (hclaimed : name ∈ claimed) : unclaimed entries' claimed = unclaimed entries claimed := by
  induction h with
  | nil => rfl
  | @cons key v v' rest rest' hv _ ih =>
      unfold unclaimed
      rw [ih]
      by_cases hkey : key = .text name
      · cases hfield : fieldName? key with
        | none => rfl
        | some found =>
            have hfound : found = name := by
              have htext := text?_of_fieldName? hfield
              rw [hkey] at htext
              exact (Option.some.inj htext).symm
            have hcontains : claimed.contains found = true := by
              rw [hfound]
              exact List.contains_iff_mem.mpr hclaimed
            simp only [hcontains, if_true]
      · rw [hv hkey]

end Schema

end ModelPlaybook
