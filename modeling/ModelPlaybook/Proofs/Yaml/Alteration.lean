import Mathlib
import ModelPlaybook.Proofs.Failing
import ModelPlaybook.Proofs.Value.Alteration
import ModelPlaybook.Yaml.Reading

/-!
# Documents that differ in one value

A mapping whose entries are all the same but for the value of one of them stands for entries that
are the same but for the value under that name, provided that no later entry has the name too.
-/

namespace ModelPlaybook.Yaml

/-! ## Parts of values -/

namespace Built

variable {α β : Type}

theorem both_eq_ok {a : Built α} {b : Built β} {x : α} {y : β} :
    both a b = .ok (x, y) ↔ a = .ok x ∧ b = .ok y := by
  cases a with
  | ok a' => cases b <;> simp [both]
  | error e =>
      cases b with
      | ok b' => simp [both]
      | error f =>
          simp only [both]
          split <;> simp

theorem all_cons_eq_ok {a : Built α} {rest : List (Built α)} {xs : List α} :
    all (a :: rest) = .ok xs ↔ ∃ x more, xs = x :: more ∧ a = .ok x ∧ all rest = .ok more := by
  simp only [all, map_eq_ok, Prod.exists, both_eq_ok]
  constructor
  · rintro ⟨x, more, ⟨ha, hrest⟩, rfl⟩
    exact ⟨x, more, rfl, ha, hrest⟩
  · rintro ⟨x, more, rfl, ha, hrest⟩
    exact ⟨x, more, ⟨ha, hrest⟩, rfl⟩

theorem all_append_eq_ok {front back : List (Built α)} {xs : List α} :
    all (front ++ back) = .ok xs ↔
      ∃ ys zs, xs = ys ++ zs ∧ all front = .ok ys ∧ all back = .ok zs := by
  induction front generalizing xs with
  | nil => simp [all]
  | cons a front ih =>
      simp only [List.cons_append, all_cons_eq_ok, ih]
      constructor
      · rintro ⟨x, _, rfl, ha, ys, zs, rfl, hfront, hback⟩
        exact ⟨x :: ys, zs, rfl, ⟨x, ys, rfl, ha, hfront⟩, hback⟩
      · rintro ⟨_, zs, rfl, ⟨x, ys, rfl, ha, hfront⟩, hback⟩
        exact ⟨x, ys ++ zs, rfl, ha, ys, zs, rfl, hfront, hback⟩

end Built

/-! ## Entries -/

namespace Node

variable {depth : ℕ}

theorem key_of_entry {key v : Built Value} {pair : Value × Value}
    (hentry : entry depth key v = .ok pair) : key = .ok pair.1 := by
  unfold entry at hentry
  cases key with
  | error e =>
      dsimp only at hentry
      split at hentry <;> cases hentry
  | ok k =>
      dsimp only at hentry
      split at hentry
      · rw [(Built.both_eq_ok.mp hentry).1]
      · cases hentry

theorem buildEntries_cons {key v : Node} {rest : List (Node × Node)} (hkey : key.tag ≠ .merge) :
    buildEntries depth ((key, v) :: rest) =
      (buildEntries depth rest).map fun (merged, own) =>
        (merged, entry depth (build depth true key) (build depth false v) :: own) := by
  rw [buildEntries, if_neg hkey]
  cases buildEntries depth rest with
  | error f => rfl
  | ok parts => rfl

theorem buildEntries_append (before after : List (Node × Node)) :
    buildEntries depth (before ++ after) =
      (do
        let (merged, own) ← buildEntries depth before
        let (more, others) ← buildEntries depth after
        pure (merged ++ more, own ++ others)) := by
  induction before with
  | nil =>
      rw [List.nil_append, buildEntries]
      cases buildEntries depth after <;> rfl
  | cons node before ih =>
      obtain ⟨key, v⟩ := node
      rw [List.cons_append]
      by_cases hkey : key.tag = .merge
      · rw [buildEntries, buildEntries, if_pos hkey, if_pos hkey, ih]
        cases mergedEntries depth v with
        | error f => rfl
        | ok merged =>
            cases buildEntries depth before with
            | error f => rfl
            | ok front =>
                cases buildEntries depth after with
                | error f => rfl
                | ok back => simp [bind, Except.bind, pure, Except.pure]
      · rw [buildEntries_cons hkey, buildEntries_cons hkey, ih]
        cases buildEntries depth before with
        | error f => rfl
        | ok front => cases buildEntries depth after <;> rfl

/-- An entry of its own that a mapping ends up with comes from one of its nodes. -/
theorem exists_key_of_own {nodes : List (Node × Node)} {merged own : List (Built (Value × Value))}
    (hnodes : buildEntries depth nodes = .ok (merged, own)) {pairs : Entries}
    (hown : Built.all own = .ok pairs) :
    ∀ pair ∈ pairs, ∃ node ∈ nodes, build depth true node.1 = .ok pair.1 := by
  induction nodes generalizing merged own pairs with
  | nil =>
      rw [buildEntries] at hnodes
      cases hnodes
      cases hown
      simp
  | cons node nodes ih =>
      obtain ⟨key, v⟩ := node
      by_cases hkey : key.tag = .merge
      · rw [buildEntries, if_pos hkey] at hnodes
        cases hmerged : mergedEntries depth v with
        | error f => simp [hmerged] at hnodes
        | ok merged₀ =>
            rw [hmerged] at hnodes
            obtain ⟨⟨more, others⟩, hrest, hsame⟩ := bind_eq_ok.mp hnodes
            cases hsame
            intro pair hpair
            obtain ⟨node, hnode, hbuilt⟩ := ih hrest hown pair hpair
            exact ⟨node, List.mem_cons_of_mem _ hnode, hbuilt⟩
      · rw [buildEntries_cons hkey] at hnodes
        obtain ⟨⟨more, others⟩, hrest, hsame⟩ := map_eq_ok.mp hnodes
        cases hsame
        obtain ⟨first, back, rfl, hfirst, hback⟩ := Built.all_cons_eq_ok.mp hown
        intro pair hpair
        rcases List.mem_cons.mp hpair with rfl | hpair
        · exact ⟨(key, v), List.mem_cons_self, key_of_entry hfirst⟩
        · obtain ⟨node, hnode, hbuilt⟩ := ih hrest hback pair hpair
          exact ⟨node, List.mem_cons_of_mem _ hnode, hbuilt⟩

theorem build_mapping_eq_ok {nodes : List (Node × Node)} {isKey : Bool} {document : Value} :
    build depth isKey (.mapping .mapping nodes) = .ok document ↔
      ∃ merged own pairs, buildEntries (depth + 1) nodes = .ok (merged, own) ∧
        Built.all (merged ++ own) = .ok pairs ∧ document = .map (Entries.ofPairs pairs) := by
  rw [build]
  cases buildEntries (depth + 1) nodes with
  | error f => simp [Built.placed, Except.mapError, Except.map]
  | ok parts =>
      obtain ⟨merged, own⟩ := parts
      simp only [map_eq_ok, Except.ok.injEq, Prod.mk.injEq]
      constructor
      · rintro ⟨_, ⟨pairs, hall, rfl⟩, rfl⟩
        exact ⟨merged, own, pairs, ⟨rfl, rfl⟩, hall, rfl⟩
      · rintro ⟨_, _, pairs, ⟨rfl, rfl⟩, hall, rfl⟩
        exact ⟨_, ⟨pairs, hall, rfl⟩, rfl⟩

theorem entry_of_text {name : String} {v : Node} {x : Value} (hv : build depth false v = .ok x) :
    entry depth (build depth true (.scalar .text name)) (build depth false v) =
      .ok (.text name, x) := by
  rw [hv]
  simp [build, entry, wantsScalar, Content.read, Built.placed, Except.mapError, canBeKey,
    Built.both]

/-- A mapping in which one value is replaced. -/
theorem build_replaced {name : String} {before after : List (Node × Node)} {v w : Node}
    {x y document : Value} (hv : build 1 false v = .ok x) (hw : build 1 false w = .ok y)
    (hafter : ∀ node ∈ after, build 1 true node.1 ≠ .ok (.text name))
    (hbuilt : build 0 false (.mapping .mapping (before ++ (.scalar .text name, v) :: after)) =
      .ok document) :
    ∃ entries entries' : Entries, document = .map entries ∧
      build 0 false (.mapping .mapping (before ++ (.scalar .text name, w) :: after)) =
        .ok (.map entries') ∧
      Entries.SameBut name entries entries' ∧ entries.get? name = some x ∧
        entries'.get? name = some y := by
  have hkey : (Node.scalar .text name).tag ≠ .merge := by simp [Node.tag]
  obtain ⟨merged, own, pairs, hnodes, hall, rfl⟩ := build_mapping_eq_ok.mp hbuilt
  rw [buildEntries_append, buildEntries_cons hkey, entry_of_text hv] at hnodes
  obtain ⟨⟨merged₁, own₁⟩, hbefore, hnodes⟩ := bind_eq_ok.mp hnodes
  obtain ⟨⟨merged₂, _⟩, hrest, hsame⟩ := bind_eq_ok.mp hnodes
  obtain ⟨⟨_, own₂⟩, hbehind, hback⟩ := map_eq_ok.mp hrest
  cases hback
  cases hsame
  rw [← List.append_assoc] at hall
  obtain ⟨front, _, rfl, hfront, hall⟩ := Built.all_append_eq_ok.mp hall
  obtain ⟨_, back, rfl, hfirst, hback⟩ := Built.all_cons_eq_ok.mp hall
  cases hfirst
  have hlast : ∀ entry ∈ back, entry.1 ≠ .text name := by
    intro entry hentry hname
    obtain ⟨node, hnode, hkey⟩ := exists_key_of_own hbehind hback entry hentry
    rw [hname] at hkey
    exact hafter node hnode hkey
  have hsame : Entries.SameBut name (front ++ (.text name, x) :: back)
      (front ++ (.text name, y) :: back) :=
    (Entries.sameBut_refl name front).append
      (.cons (fun hother => absurd rfl hother) (Entries.sameBut_refl name back))
  refine ⟨_, _, rfl, build_mapping_eq_ok.mpr ⟨merged₁ ++ merged₂,
    own₁ ++ .ok (.text name, y) :: own₂, front ++ (.text name, y) :: back, ?_, ?_, rfl⟩,
    hsame.ofPairs, Entries.get?_ofPairs_of_last hlast, Entries.get?_ofPairs_of_last hlast⟩
  · rw [buildEntries_append, buildEntries_cons hkey, entry_of_text hw, hbefore, hbehind]
    rfl
  · rw [← List.append_assoc]
    exact Built.all_append_eq_ok.mpr ⟨front, _, rfl, hfront,
      Built.all_cons_eq_ok.mpr ⟨_, back, rfl, rfl, hback⟩⟩

end Node

end ModelPlaybook.Yaml
