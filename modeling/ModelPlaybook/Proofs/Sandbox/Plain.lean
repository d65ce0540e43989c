import Mathlib.Data.List.Forall2
import ModelPlaybook.Proofs.Failing
import ModelPlaybook.Sandbox.Plain

/-!
# Plain data

Plain data is scalars, sequences of plain data, and mappings from texts to plain data.  These are
the values that have a plain form, whatever path they stand at, and every plain form is plain data.
The same holds of all that a conversion can meet, where nothing breaks off.
-/

namespace ModelPlaybook

inductive Value.IsPlain : Value → Prop where
  | scalar (s : Scalar) : IsPlain (.scalar s)
  | list {items : List Value} (hitems : ∀ v ∈ items, IsPlain v) : IsPlain (.list items)
  | tuple {items : List Value} (hitems : ∀ v ∈ items, IsPlain v) : IsPlain (.tuple items)
  | map {entries : Entries} (hkeys : ∀ entry ∈ entries, ∃ name, entry.1 = .text name)
      (hvalues : ∀ entry ∈ entries, IsPlain entry.2) : IsPlain (.map entries)
  | frozenMap {entries : Entries} (hkeys : ∀ entry ∈ entries, ∃ name, entry.1 = .text name)
      (hvalues : ∀ entry ∈ entries, IsPlain entry.2) : IsPlain (.frozenMap entries)

/-- The entries of a plain mapping. -/
structure Entries.IsPlain (entries : Entries) : Prop where
  keys : ∀ entry ∈ entries, ∃ name, entry.1 = .text name
  values : ∀ entry ∈ entries, entry.2.IsPlain

theorem Entries.isPlain_iff {entries : Entries} :
    entries.IsPlain ↔ (∀ k ∈ entries.map Prod.fst, ∃ name, k = .text name) ∧
      ∀ v ∈ entries.map Prod.snd, v.IsPlain := by
  rw [List.forall_mem_map, List.forall_mem_map]
  exact ⟨fun h => ⟨h.keys, h.values⟩, fun h => ⟨h.1, h.2⟩⟩

theorem Entries.IsPlain.nil : Entries.IsPlain [] :=
  ⟨by simp, by simp⟩

theorem Entries.IsPlain.cons {name : String} {v : Value} {entries : Entries} (hv : v.IsPlain)
    (hentries : entries.IsPlain) :
    Entries.IsPlain ((.text name, v) :: entries) :=
  ⟨List.forall_mem_cons.mpr ⟨⟨name, rfl⟩, hentries.keys⟩,
    List.forall_mem_cons.mpr ⟨hv, hentries.values⟩⟩

theorem Entries.IsPlain.get? {entries : Entries} (hentries : entries.IsPlain) {name : String}
    {v : Value} (hfound : entries.get? name = some v) :
    v.IsPlain := by
  obtain ⟨entry, hentry, rfl⟩ := Option.map_eq_some_iff.mp hfound
  exact hentries.values entry (List.mem_of_find?_eq_some hentry)

namespace Value

variable {v w : Value} {items : List Value} {entries : Entries}

theorem isPlain_of_sequence? (hitems : v.sequence? = some items) :
    v.IsPlain ↔ ∀ x ∈ items, x.IsPlain := by
  cases v with
  | list xs | tuple xs =>
      obtain rfl := Option.some.inj hitems
      constructor
      · rintro ⟨⟩
        assumption
      · intro hxs
        constructor
        exact hxs
  | _ => cases hitems

theorem isPlain_of_entries? (hentries : v.entries? = some entries) :
    v.IsPlain ↔ entries.IsPlain := by
  cases v with
  | map xs | frozenMap xs =>
      obtain rfl := Option.some.inj hentries
      constructor
      · rintro ⟨⟩
        exact ⟨‹_›, ‹_›⟩
      · intro hxs
        constructor
        · exact hxs.keys
        · exact hxs.values
  | _ => cases hentries

theorem isPlain_map_iff : (Value.map entries).IsPlain ↔ entries.IsPlain :=
  isPlain_of_entries? rfl

end Value

/-! ## What a conversion meets -/

/-- What a conversion meets is plain data, of which nothing breaks off. -/
inductive Cargo.IsPlain : Cargo → Prop where
  | scalar (s : Scalar) : IsPlain (.scalar s)
  | sequence (typeName : String) {items : List Cargo} (hitems : ∀ c ∈ items, IsPlain c) :
      IsPlain (.sequence typeName items none)
  | mapping (typeName : String) {entries : List (Value × Cargo)}
      (hkeys : ∀ entry ∈ entries, ∃ name, entry.1 = .text name)
      (hvalues : ∀ entry ∈ entries, IsPlain entry.2) : IsPlain (.mapping typeName entries none)

namespace Cargo

theorem ofItems_eq_map (items : List Value) : ofItems items = items.map ofValue := by
  induction items with
  | nil => rfl
  | cons x xs ih => rw [ofItems, ih, List.map_cons]

theorem ofEntries_eq_map (entries : Entries) :
    ofEntries entries = entries.map fun entry => (entry.1, ofValue entry.2) := by
  induction entries with
  | nil => rfl
  | cons entry rest ih => rw [ofEntries, ih, List.map_cons]

theorem isPlain_of_ofValue {v : Value} (hplain : (ofValue v).IsPlain) : v.IsPlain := by
  generalize hc : ofValue v = c at hplain
  induction hplain generalizing v with
  | scalar s =>
      cases v with
      | scalar s' => exact .scalar s'
      | _ => cases hc
  | sequence typeName hitems ih =>
      cases v with
      | list xs | tuple xs =>
          obtain ⟨-, rfl, -⟩ := Cargo.sequence.inj hc
          rw [ofItems_eq_map, List.forall_mem_map] at ih
          exact (Value.isPlain_of_sequence? rfl).mpr fun x hx => ih x hx rfl
      | _ => cases hc
  | mapping typeName hkeys hvalues ih =>
      cases v with
      | map xs | frozenMap xs =>
          obtain ⟨-, rfl, -⟩ := Cargo.mapping.inj hc
          rw [ofEntries_eq_map, List.forall_mem_map] at hkeys ih
          exact (Value.isPlain_of_entries? rfl).mpr
            ⟨hkeys, fun entry hentry => ih entry hentry rfl⟩
      | _ => cases hc

/-- A value is plain data just if its conversion meets plain data. -/
theorem isPlain_ofValue {v : Value} : (ofValue v).IsPlain ↔ v.IsPlain := by
  refine ⟨isPlain_of_ofValue, fun hv => ?_⟩
  induction hv with
  | scalar s => exact .scalar s
  | list hitems ih | tuple hitems ih =>
      rw [ofValue, ofItems_eq_map]
      exact .sequence _ (List.forall_mem_map.mpr ih)
  | map hkeys hvalues ih | frozenMap hkeys hvalues ih =>
      rw [ofValue, ofEntries_eq_map]
      exact .mapping _ (List.forall_mem_map.mpr hkeys) (List.forall_mem_map.mpr ih)

/-! ## Plain forms -/

theorem ensureWhole_eq_ok_iff {break? : Option Fault} :
    ensureWhole break? = .ok () ↔ break? = none := by
  cases break? <;> simp [ensureWhole]

theorem toPlain_sequence_eq_ok {path typeName : String} {items : List Cargo}
    {break? : Option Fault} {w : Value} :
    (sequence typeName items break?).toPlain path = .ok w ↔
      break? = none ∧ ∃ ys, plainItems path 0 items = .ok ys ∧ w = .list ys := by
  rw [toPlain, bind_eq_ok]
  constructor
  · rintro ⟨ys, hys, hw⟩
    obtain ⟨_, hwhole, hw⟩ := bind_eq_ok.mp hw
    exact ⟨ensureWhole_eq_ok_iff.mp hwhole, ys, hys, (Except.ok.inj hw).symm⟩
  · rintro ⟨rfl, ys, hys, rfl⟩
    exact ⟨ys, hys, rfl⟩

theorem toPlain_mapping_eq_ok {path typeName : String} {entries : List (Value × Cargo)}
    {break? : Option Fault} {w : Value} :
    (mapping typeName entries break?).toPlain path = .ok w ↔
      break? = none ∧ ∃ plains, plainEntries path entries = .ok plains ∧ w = .map plains := by
  rw [toPlain, bind_eq_ok]
  constructor
  · rintro ⟨plains, hplains, hw⟩
    obtain ⟨_, hwhole, hw⟩ := bind_eq_ok.mp hw
    exact ⟨ensureWhole_eq_ok_iff.mp hwhole, plains, hplains, (Except.ok.inj hw).symm⟩
  · rintro ⟨rfl, plains, hplains, rfl⟩
    exact ⟨plains, hplains, rfl⟩

/-- A relation that what a conversion meets and a plain form have if their parts do. -/
structure Ascends (P : Cargo → Value → Prop) : Prop where
  scalar (s : Scalar) : P (.scalar s) (.scalar s)
  sequence {typeName : String} {items : List Cargo} {ys : List Value}
    (hys : List.Forall₂ P items ys) : P (.sequence typeName items none) (.list ys)
  mapping {typeName : String} {entries : List (Value × Cargo)} {plains : Entries}
    (htexts : ∀ k ∈ entries.map Prod.fst, ∃ name, k = .text name)
    (hkeys : entries.map Prod.fst = plains.map Prod.fst)
    (hvalues : List.Forall₂ P (entries.map Prod.snd) (plains.map Prod.snd)) :
    P (.mapping typeName entries none) (.map plains)

section

variable {P : Cargo → Value → Prop}

mutual

theorem Ascends.of_toPlain (hascends : Ascends P) {path : String} {c : Cargo} {w : Value}
    (hplain : c.toPlain path = .ok w) : P c w := by
  match c, hplain with
  | .scalar s, hplain =>
      cases hplain
      exact hascends.scalar s
  | .sequence typeName items break?, hplain =>
      obtain ⟨rfl, ys, hys, rfl⟩ := toPlain_sequence_eq_ok.mp hplain
      exact hascends.sequence (hascends.of_plainItems hys)
  | .mapping typeName entries break?, hplain =>
      obtain ⟨rfl, plains, hplains, rfl⟩ := toPlain_mapping_eq_ok.mp hplain
      obtain ⟨htexts, hkeys, hvalues⟩ := hascends.of_plainEntries hplains
      exact hascends.mapping htexts hkeys hvalues
termination_by structural c

theorem Ascends.of_plainItems (hascends : Ascends P) {path : String} {index : Nat}
    {items : List Cargo} {ys : List Value} (hplain : plainItems path index items = .ok ys) :
    List.Forall₂ P items ys := by
  match items, hplain with
  | [], hplain =>
      cases hplain
      exact .nil
  | x :: xs, hplain =>
      obtain ⟨y, hy, hplain⟩ := bind_eq_ok.mp hplain
      obtain ⟨more, hmore, hys⟩ := bind_eq_ok.mp hplain
      cases hys
      exact .cons (hascends.of_toPlain hy) (hascends.of_plainItems hmore)
termination_by structural items

theorem Ascends.of_plainEntries (hascends : Ascends P) {path : String}
    {entries : List (Value × Cargo)} {plains : Entries}
    (hplain : plainEntries path entries = .ok plains) :
    (∀ k ∈ entries.map Prod.fst, ∃ name, k = .text name) ∧
      entries.map Prod.fst = plains.map Prod.fst ∧
        List.Forall₂ P (entries.map Prod.snd) (plains.map Prod.snd) := by
  match entries, hplain with
  | [], hplain =>
      cases hplain
      exact ⟨by simp, rfl, .nil⟩
  | (k, c) :: rest, hplain =>
      rw [plainEntries] at hplain
      split at hplain
      next name hname =>
        obtain ⟨w, hw, hplain⟩ := bind_eq_ok.mp hplain
        obtain ⟨more, hmore, hplains⟩ := bind_eq_ok.mp hplain
        cases hplains
        have htext : ∃ name, k = .text name := ⟨name, Value.eq_text_of_text? hname⟩
        obtain ⟨htexts, hkeys, hvalues⟩ := hascends.of_plainEntries hmore
        exact ⟨List.forall_mem_cons.mpr ⟨htext, htexts⟩, congrArg (k :: ·) hkeys,
          .cons (hascends.of_toPlain hw) hvalues⟩
      next => cases hplain
termination_by structural entries

end

end

theorem forall_mem_of_forall₂ {α β : Type} {R : α → β → Prop} {p : α → Prop} {xs : List α}
    {ys : List β} (hall : List.Forall₂ R xs ys) (hp : ∀ x y, R x y → p x) : ∀ x ∈ xs, p x := by
  induction hall with
  | nil => simp
  | cons hx _ ih => exact List.forall_mem_cons.mpr ⟨hp _ _ hx, ih⟩

theorem ascends_isPlain : Ascends fun c w => c.IsPlain ∧ w.IsPlain where
  scalar s := ⟨.scalar s, .scalar s⟩
  sequence hys := by
    have hleft := forall_mem_of_forall₂ hys fun _ _ h => h.1
    have hright := forall_mem_of_forall₂ hys.flip fun _ _ h => h.2
    exact ⟨.sequence _ hleft, .list hright⟩
  mapping htexts hkeys hvalues := by
    have hleft := forall_mem_of_forall₂ hvalues fun _ _ h => h.1
    have hright := forall_mem_of_forall₂ hvalues.flip fun _ _ h => h.2
    rw [Value.isPlain_map_iff, Entries.isPlain_iff, ← hkeys]
    rw [List.forall_mem_map] at hleft
    exact ⟨.mapping _ (fun entry hentry => htexts _ (List.mem_map_of_mem hentry)) hleft, htexts,
      hright⟩

theorem exists_plainItems {items : List Cargo}
    (hitems : ∀ c ∈ items, ∀ path, ∃ w, c.toPlain path = .ok w) (path : String) (index : Nat) :
    ∃ ys, plainItems path index items = .ok ys := by
  induction items generalizing index with
  | nil => exact ⟨[], rfl⟩
  | cons x xs ih =>
      obtain ⟨hx, hxs⟩ := List.forall_mem_cons.mp hitems
      obtain ⟨y, hy⟩ := hx (itemPath path index)
      obtain ⟨ys, hys⟩ := ih hxs (index + 1)
      exact ⟨y :: ys, bind_eq_ok.mpr ⟨y, hy, bind_eq_ok.mpr ⟨ys, hys, rfl⟩⟩⟩

theorem exists_plainEntries {entries : List (Value × Cargo)}
    (hkeys : ∀ entry ∈ entries, ∃ name, entry.1 = .text name)
    (hvalues : ∀ entry ∈ entries, ∀ path, ∃ w, entry.2.toPlain path = .ok w) (path : String) :
    ∃ plains, plainEntries path entries = .ok plains := by
  induction entries with
  | nil => exact ⟨[], rfl⟩
  | cons entry rest ih =>
      obtain ⟨k, c⟩ := entry
      obtain ⟨⟨name, hkey⟩, hkeysRest⟩ := List.forall_mem_cons.mp hkeys
      obtain ⟨hvalue, hvaluesRest⟩ := List.forall_mem_cons.mp hvalues
      obtain rfl : k = .text name := hkey
      obtain ⟨w, hw⟩ := hvalue (entryPath path name)
      obtain ⟨plains, hplains⟩ := ih hkeysRest hvaluesRest
      exact ⟨_, bind_eq_ok.mpr ⟨w, hw, bind_eq_ok.mpr ⟨plains, hplains, rfl⟩⟩⟩

/-- Plain data has a plain form at every path. -/
theorem IsPlain.exists_toPlain {c : Cargo} (hc : c.IsPlain) (path : String) :
    ∃ w, c.toPlain path = .ok w := by
  induction hc generalizing path with
  | scalar s => exact ⟨.scalar s, rfl⟩
  | sequence typeName hitems ih =>
      obtain ⟨ys, hys⟩ := exists_plainItems ih path 0
      exact ⟨.list ys, toPlain_sequence_eq_ok.mpr ⟨rfl, ys, hys, rfl⟩⟩
  | mapping typeName hkeys hvalues ih =>
      obtain ⟨plains, hplains⟩ := exists_plainEntries hkeys ih path
      exact ⟨.map plains, toPlain_mapping_eq_ok.mpr ⟨rfl, plains, hplains, rfl⟩⟩

/-- What is converted to a plain form is plain, and so is its plain form. -/
theorem isPlain_of_toPlain {path : String} {c : Cargo} {w : Value}
    (hplain : c.toPlain path = .ok w) : c.IsPlain ∧ w.IsPlain :=
  ascends_isPlain.of_toPlain hplain

/-- The plain form of a mapping is a mapping. -/
theorem exists_map_of_toPlain {path : String} {c : Cargo} {w : Value}
    (hmapping : c.isMapping = true) (hplain : c.toPlain path = .ok w) :
    ∃ entries, w = .map entries := by
  cases c with
  | mapping typeName entries break? =>
      obtain ⟨-, plains, -, rfl⟩ := toPlain_mapping_eq_ok.mp hplain
      exact ⟨plains, rfl⟩
  | _ => cases hmapping

theorem isMapping_ofValue (v : Value) : (ofValue v).isMapping = v.entries?.isSome := by
  cases v <;> rfl

end Cargo

namespace Value

theorem isPlain_of_toPlain {path : String} {v w : Value} (hplain : v.toPlain path = .ok w) :
    v.IsPlain ∧ w.IsPlain :=
  (Cargo.isPlain_of_toPlain hplain).imp_left Cargo.isPlain_ofValue.mp

theorem IsPlain.exists_toPlain {v : Value} (hv : v.IsPlain) (path : String) :
    ∃ w, v.toPlain path = .ok w :=
  (Cargo.isPlain_ofValue.mpr hv).exists_toPlain path

theorem exists_map_of_toPlain {path : String} {v w : Value} (hmapping : v.entries?.isSome = true)
    (hplain : v.toPlain path = .ok w) : ∃ entries, w = .map entries :=
  Cargo.exists_map_of_toPlain ((Cargo.isMapping_ofValue v).trans hmapping) hplain

end Value

end ModelPlaybook
