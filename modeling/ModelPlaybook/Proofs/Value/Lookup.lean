import Mathlib
import ModelPlaybook.Value.Equality

/-!
# Looking up names

A name is found at the first key that is this text.  What is put under a name changes nothing under
any other, and where no key comes twice the order of the entries makes no difference.
-/

namespace ModelPlaybook

theorem Value.sameKey_text (key : Value) (name : String) :
    key.sameKey (.text name) = (key.text? == some name) := by
  cases key with
  | scalar a =>
      cases a with
      | float x => cases x <;> rfl
      | decimal d => cases d <;> rfl
      | none | bool b | int n | text s | date d | dateTime t | duration d => rfl
  | foreign typeName origin => cases origin <;> rfl
  | list items | tuple items | map items | frozenMap items | set items | frozenSet items => rfl
  | bytes content => rfl
  | derived expression => rfl

theorem Value.sameKey_text_iff {key : Value} {name : String} :
    key.sameKey (.text name) = true ↔ key = .text name := by
  rw [sameKey_text]
  constructor
  · intro hsame
    exact eq_text_of_text? (eq_of_beq hsame)
  · rintro rfl
    simp [text?]

namespace Entries

variable {entries : Entries} {name : String}

theorem get?_cons (key v : Value) (rest : Entries) (name : String) :
    get? ((key, v) :: rest) name = if key = .text name then some v else get? rest name := by
  by_cases hkey : key = .text name
  · subst hkey
    simp [get?, Value.text?]
  · have hother : key.text? ≠ some name := fun h => hkey (Value.eq_text_of_text? h)
    simp [get?, hkey, hother]

theorem get?_eq_none_iff : entries.get? name = none ↔ ∀ entry ∈ entries, entry.1 ≠ .text name := by
  induction entries with
  | nil => simp [get?]
  | cons entry rest ih =>
      obtain ⟨key, w⟩ := entry
      by_cases hkey : key = .text name
      · simp [get?_cons, hkey]
      · simp [get?_cons, hkey, ih]

theorem get?_append (entries more : Entries) (name : String) :
    (entries ++ more).get? name = (entries.get? name).or (more.get? name) := by
  induction entries with
  | nil => rfl
  | cons entry rest ih =>
      obtain ⟨key, w⟩ := entry
      by_cases hkey : key = .text name
      · simp [get?_cons, hkey]
      · simp [get?_cons, hkey, ih]

/-- Where no key comes twice, a name is looked up wherever it stands. -/
theorem get?_eq_some_iff_mem {v : Value} (hdistinct : (entries.map Prod.fst).Nodup) :
    entries.get? name = some v ↔ (.text name, v) ∈ entries := by
  induction entries with
  | nil => simp [get?]
  | cons entry rest ih =>
      obtain ⟨key, w⟩ := entry
      obtain ⟨hfresh, hrest⟩ := List.nodup_cons.mp hdistinct
      rw [get?_cons, List.mem_cons, Prod.mk.injEq, eq_comm (a := Value.text name)]
      by_cases hkey : key = .text name
      · subst hkey
        have habsent : (Value.text name, v) ∉ rest := by
          intro hv
          exact hfresh (List.mem_map.mpr ⟨_, hv, rfl⟩)
        simp [habsent, eq_comm]
      · simp [hkey, ih hrest]

theorem get?_of_perm {others : Entries} (hperm : others.Perm entries)
    (hdistinct : (entries.map Prod.fst).Nodup) (name : String) :
    others.get? name = entries.get? name := by
  have hothers : (others.map Prod.fst).Nodup := (hperm.map Prod.fst).nodup_iff.mpr hdistinct
  apply Option.ext
  intro v
  rw [get?_eq_some_iff_mem hothers, get?_eq_some_iff_mem hdistinct, hperm.mem_iff]

/-- A value that is replaced in place. -/
theorem get?_replace (entries : Entries) (name other : String) (v : Value) :
    Entries.get? (entries.map fun entry =>
        if entry.1.sameKey (.text name) then (entry.1, v) else entry) other =
      if other = name then (entries.get? name).map fun _ => v else entries.get? other := by
  induction entries with
  | nil => simp [get?]
  | cons entry rest ih =>
      obtain ⟨key, w⟩ := entry
      rw [List.map_cons]
      by_cases hkey : key = .text name
      · subst hkey
        rw [if_pos (Value.sameKey_text_iff.mpr rfl), get?_cons, get?_cons, get?_cons, ih]
        by_cases hsame : other = name
        · simp [hsame]
        · simp [hsame, Ne.symm hsame]
      · have hother : ¬ key.sameKey (.text name) = true :=
          fun h => hkey (Value.sameKey_text_iff.mp h)
        rw [if_neg hother, get?_cons, get?_cons, get?_cons, ih]
        by_cases hsame : other = name
        · simp [hsame, hkey]
        · simp [hsame]

/-- What is put under a name is found there, and nothing else changes. -/
theorem get?_put (entries : Entries) (name other : String) (v : Value) :
    (entries.put (.text name) v).get? other =
      if other = name then some v else entries.get? other := by
  unfold put
  by_cases hthere : entries.any (fun entry => entry.1.sameKey (.text name)) = true
  · have hfound : entries.get? name ≠ none := by
      obtain ⟨entry, hentry, hsame⟩ := List.any_eq_true.mp hthere
      exact fun hnone => get?_eq_none_iff.mp hnone entry hentry (Value.sameKey_text_iff.mp hsame)
    obtain ⟨w, hw⟩ := Option.ne_none_iff_exists'.mp hfound
    rw [if_pos hthere, get?_replace, hw, Option.map_some]
  · have hnone : entries.get? name = none := by
      refine get?_eq_none_iff.mpr fun entry hentry hkey => hthere ?_
      exact List.any_eq_true.mpr ⟨entry, hentry, Value.sameKey_text_iff.mpr hkey⟩
    rw [if_neg hthere, get?_append, get?_cons]
    by_cases hsame : other = name
    · subst hsame
      simp [hnone]
    · have hkey : Value.text name ≠ .text other := by simpa using Ne.symm hsame
      rw [if_neg hkey, if_neg hsame]
      exact Option.or_none

end Entries

end ModelPlaybook
