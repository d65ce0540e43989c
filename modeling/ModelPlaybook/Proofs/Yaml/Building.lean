import ModelPlaybook.Proofs.Yaml.Composing
import ModelPlaybook.Yaml.Reading

/-!
# What building values lets out

The value of a document is built from the values of its scalars.  A scalar whose text does not fit
its tag is a misfit, and the kind of its fault depends on the tag; everything else that cannot be
built is a problem of the text.
-/

namespace ModelPlaybook

theorem WholeText.kind_of_read {base : Nat} {s : String} {fault : Fault}
    (hread : WholeText.read base s = .error fault) : fault.kind = .value := by
  unfold WholeText.read WholeText.readShown at hread
  dsimp only at hread
  split at hread
  · cases hread
    rfl
  · split at hread
    · cases hread
      rfl
    · split at hread
      · cases hread
        rfl
      · cases hread

namespace Yaml

/-! ## Scalars -/

namespace Timestamp

theorem kind_of_offset {zone : Zone} {fault : Fault} (hoffset : Zone.offset zone = .error fault) :
    fault.kind = .value := by
  cases zone with
  | missing => cases hoffset
  | universal => cases hoffset
  | ahead negative hours minutes =>
      simp only [Zone.offset] at hoffset
      split at hoffset
      · cases hoffset
      · cases hoffset
        rfl

theorem kind_of_toScalar {t : Timestamp} {fault : Fault} (hscalar : t.toScalar = .error fault) :
    fault.kind = .value := by
  unfold toScalar at hscalar
  split at hscalar
  · split at hscalar
    · cases hscalar
    · cases hscalar
      rfl
  · rcases bind_eq_error.mp hscalar with hoffset | ⟨offset, -, hmoment⟩
    · exact kind_of_offset hoffset
    · split at hmoment
      · cases hmoment
      · cases hmoment
        rfl

end Timestamp

namespace Content

/-- The kinds of faults that a scalar of a given tag can fail with. -/
def misfitKinds : Tag → List FaultKind
  | .bool => [.key]
  | .int => [.index, .value]
  | .float => [.index, .value, .overflow]
  | .timestamp => [.value, .missingAttribute]
  | _ => []

variable {kinds : List FaultKind}

theorem letsOut_ofFault {α : Type} {r : Except Fault α}
    (hr : ∀ fault, r = .error fault → fault.kind ∈ kinds) :
    LetsOut (fun fault => fault.kind ∈ kinds) (ofFault r) := by
  refine letsOut_iff.mpr fun fault h => ?_
  obtain ⟨fault', herror, hsame⟩ := mapError_eq_error.mp h
  cases hsame
  exact hr fault herror

theorem letsOut_unsigned (s : String) (hkinds : .index ∈ kinds) :
    LetsOut (fun fault => fault.kind ∈ kinds) (unsigned s) := by
  unfold unsigned
  split
  · exact .misfit hkinds
  · exact .ok _
  · exact .ok _
  · exact .ok _

theorem letsOut_whole (base : Nat) (cs : List Char) (hkinds : .value ∈ kinds) :
    LetsOut (fun fault => fault.kind ∈ kinds) (whole base cs) := by
  refine letsOut_ofFault fun fault hread => ?_
  rw [WholeText.kind_of_read hread]
  exact hkinds

theorem letsOut_int (s : String) :
    LetsOut (fun fault => fault.kind ∈ misfitKinds .int) (int s) := by
  have hwhole : ∀ base cs,
      LetsOut (fun fault => fault.kind ∈ misfitKinds .int) (whole base cs) := by
    intro base cs
    exact letsOut_whole base cs (by simp [misfitKinds])
  refine (letsOut_unsigned s (by simp [misfitKinds])).bind ?_
  rintro ⟨negative, body⟩
  dsimp only
  split
  · exact LetsOut.bind (.misfit (by simp [misfitKinds, emptyText])) fun _ => .ok _
  · exact .ok _
  · exact (hwhole _ _).bind fun _ => .ok _
  · exact (hwhole _ _).bind fun _ => .ok _
  · exact (hwhole _ _).bind fun _ => .ok _
  · refine .ite ?_ ((hwhole _ _).bind fun _ => .ok _)
    exact (LetsOut.mapM (hwhole 10) _).bind fun _ => .ok _

theorem letsOut_fraction (cs : List Char) :
    LetsOut (fun fault => fault.kind ∈ misfitKinds .float) (fraction cs) := by
  unfold fraction
  dsimp only
  split
  · exact .ok _
  · exact .misfit (by simp [misfitKinds, Fault.ofValue])

theorem letsOut_sexagesimal (scale : Int) (sum : Binary64) (parts : List Binary64) :
    LetsOut (fun fault => fault.kind ∈ misfitKinds .float) (sexagesimal scale sum parts) := by
  induction parts generalizing scale sum with
  | nil => exact .ok _
  | cons part parts ih =>
      refine LetsOut.bind (letsOut_ofFault fun fault hfloat => ?_) fun _ => ih _ _
      unfold Number.floatOfInt at hfloat
      dsimp only at hfloat
      split at hfloat
      · cases hfloat
      · cases hfloat
        simp [misfitKinds, Fault.intTooLarge]

theorem letsOut_float (s : String) :
    LetsOut (fun fault => fault.kind ∈ misfitKinds .float) (float s) := by
  refine (letsOut_unsigned s (by simp [misfitKinds])).bind ?_
  rintro ⟨negative, body⟩
  dsimp only
  refine .ite (.ok _) (.ite (.ok _) (.ite ?_ ?_))
  · refine (LetsOut.mapM letsOut_fraction _).bind fun parts => ?_
    exact (letsOut_sexagesimal _ _ _).bind fun _ => .ok _
  · exact (letsOut_fraction _).bind fun _ => .ok _

theorem letsOut_bool (s : String) :
    LetsOut (fun fault => fault.kind ∈ misfitKinds .bool) (bool s) :=
  .ite (.ok _) (.ite (.ok _) (.misfit (by simp [misfitKinds])))

theorem letsOut_timestamp (s : String) :
    LetsOut (fun fault => fault.kind ∈ misfitKinds .timestamp) (timestamp s) := by
  unfold timestamp
  dsimp only
  split
  · refine letsOut_ofFault fun fault hscalar => ?_
    rw [Timestamp.kind_of_toScalar hscalar]
    simp [misfitKinds]
  · exact .misfit (by simp [misfitKinds])

theorem letsOut_bytes {P : Fault → Prop} (s : String) : LetsOut P (bytes s) := by
  refine .ite ?_ (.refuse _)
  split
  · exact .ok _
  · exact .refuse _

theorem kind_of_read {tag : Tag} {s : String} {fault : Fault}
    (hread : Content.read tag s = .error (.misfit fault)) : fault.kind ∈ misfitKinds tag := by
  have hcontent : LetsOut (fun fault => fault.kind ∈ misfitKinds tag) (Content.read tag s) := by
    cases tag with
    | bool => exact (letsOut_bool s).bind fun _ => .ok _
    | int => exact (letsOut_int s).bind fun _ => .ok _
    | float => exact (letsOut_float s).bind fun _ => .ok _
    | timestamp => exact (letsOut_timestamp s).bind fun _ => .ok _
    | binary => exact (letsOut_bytes s).bind fun _ => .ok _
    | null => exact .ok _
    | text => exact .ok _
    | merge => exact .refuse _
    | standard => exact .refuse _
    | sequence => exact .refuse _
    | mapping => exact .refuse _
    | set => exact .refuse _
    | pairs => exact .refuse _
    | unknown name => exact .refuse _
  exact letsOut_iff.mp hcontent fault hread

end Content

/-! ## Nodes -/

/-- A scalar in a tree, or the main text of a mapping in it, does not fit its tag. -/
inductive Node.Misfits : Node → Fault → Prop where
  | scalar {tag : Tag} {s : String} {fault : Fault}
      (hread : Content.read tag s = .error (.misfit fault)) : Misfits (.scalar tag s) fault
  | main {tag : Tag} {entries : List (Node × Node)} {s : String} {fault : Fault}
      (hmain : mainTextOf? entries = some s)
      (hread : Content.read tag s = .error (.misfit fault)) : Misfits (.mapping tag entries) fault
  | item {tag : Tag} {items : List Node} {item : Node} {fault : Fault}
      (hitem : item ∈ items) (hmisfits : Misfits item fault) : Misfits (.sequence tag items) fault
  | key {tag : Tag} {entries : List (Node × Node)} {entry : Node × Node} {fault : Fault}
      (hentry : entry ∈ entries) (hmisfits : Misfits entry.1 fault) :
      Misfits (.mapping tag entries) fault
  | value {tag : Tag} {entries : List (Node × Node)} {entry : Node × Node} {fault : Fault}
      (hentry : entry ∈ entries) (hmisfits : Misfits entry.2 fault) :
      Misfits (.mapping tag entries) fault

namespace Built

variable {α β : Type} {P : Fault → Prop}

/-- Every misfit that stands for the failures of a part has a property. -/
def LetsOut (P : Fault → Prop) (b : Built α) : Prop :=
  ∀ depth fault, b = .error (depth, .misfit fault) → P fault

namespace LetsOut

theorem ok (a : α) : LetsOut P (.ok a) := by
  intro depth fault h
  cases h

theorem placed {r : Result α} (hr : Yaml.LetsOut P r) (depth : Nat) :
    LetsOut P (Built.placed depth r) := by
  intro depth' fault h
  obtain ⟨f, hf, hsame⟩ := mapError_eq_error.mp h
  cases hsame
  exact letsOut_iff.mp hr fault hf

theorem map {b : Built α} (hb : LetsOut P b) (f : α → β) : LetsOut P (b.map f) := by
  intro depth fault h
  exact hb depth fault (map_eq_error.mp h)

theorem both {a : Built α} {b : Built β} (ha : LetsOut P a) (hb : LetsOut P b) :
    LetsOut P (a.both b) := by
  intro depth fault h
  unfold Built.both at h
  split at h
  · cases h
  · cases h
    exact ha _ _ rfl
  · cases h
    exact hb _ _ rfl
  · split at h
    · cases h
      exact ha _ _ rfl
    · cases h
      exact hb _ _ rfl

theorem all {bs : List (Built α)} (hbs : ∀ b ∈ bs, LetsOut P b) : LetsOut P (Built.all bs) := by
  induction bs with
  | nil => exact ok []
  | cons b bs ih =>
      obtain ⟨hb, hrest⟩ := List.forall_mem_cons.mp hbs
      exact (hb.both (ih hrest)).map _

end LetsOut

end Built

/-- A reader lets out only some misfits, and what it gives has a property. -/
def Yields {α : Type} (P : Fault → Prop) (Q : α → Prop) (r : Result α) : Prop :=
  LetsOut P r ∧ ∀ a, r = .ok a → Q a

namespace Yields

variable {α β : Type} {P : Fault → Prop} {Q : α → Prop} {R : β → Prop}

theorem ok {a : α} (ha : Q a) : Yields P Q (.ok a) := by
  refine ⟨.ok a, fun a' h => ?_⟩
  cases h
  exact ha

theorem refuse (problem : Problem) : Yields P Q (Yaml.refuse problem) := by
  refine ⟨.refuse problem, fun a h => ?_⟩
  cases h

/-- A failure stays the same where something else was to be given. -/
theorem error {x : Result α} {f : Failure} (hx : Yields P Q x) (hfailed : x = .error f) :
    Yields P R (.error f : Result β) := by
  constructor
  · refine letsOut_iff.mpr fun fault h => ?_
    cases h
    exact letsOut_iff.mp hx.1 fault hfailed
  · intro b h
    cases h

theorem bind {x : Result α} {f : α → Result β} (hx : Yields P Q x)
    (hf : ∀ a, Q a → Yields P R (f a)) : Yields P R (x >>= f) := by
  constructor
  · intro failure h
    rcases bind_eq_error.mp h with h | ⟨a, hrun, h⟩
    · exact hx.1 failure h
    · exact (hf a (hx.2 a hrun)).1 failure h
  · intro b h
    obtain ⟨a, hrun, h⟩ := bind_eq_ok.mp h
    exact (hf a (hx.2 a hrun)).2 b h

end Yields

namespace Node

variable {P : Fault → Prop}

theorem letsOut_ofMainText (depth : Nat) (tag : Tag) {text : Option String}
    (htext : ∀ s fault, text = some s → Content.read tag s = .error (.misfit fault) → P fault) :
    Built.LetsOut P (ofMainText depth tag text) := by
  unfold ofMainText
  split
  · exact .placed (.refuse _) _
  · exact .placed (.refuse _) _
  · exact .placed (.refuse _) _
  · split
    · rename_i s
      exact .placed (letsOut_iff.mpr fun fault => htext s fault rfl) _
    · exact .placed (.refuse _) _

theorem letsOut_entry {key value : Built Value} (depth : Nat) (hkey : Built.LetsOut P key)
    (hvalue : Built.LetsOut P value) : Built.LetsOut P (entry depth key value) := by
  unfold entry
  split
  · split
    · intro depth' fault h
      cases h
      exact hkey _ _ rfl
    · exact .placed (.refuse _) _
  · split
    · exact Built.LetsOut.both (.ok _) hvalue
    · exact .placed (.refuse _) _

theorem forall_items {tag : Tag} {items : List Node}
    (hnode : ∀ fault, (sequence tag items).Misfits fault → P fault) :
    ∀ item ∈ items, ∀ fault, item.Misfits fault → P fault := by
  intro item hitem fault hmisfits
  exact hnode fault (.item hitem hmisfits)

theorem forall_entries {tag : Tag} {entries : List (Node × Node)}
    (hnode : ∀ fault, (mapping tag entries).Misfits fault → P fault) :
    ∀ entry ∈ entries, ∀ fault, entry.1.Misfits fault ∨ entry.2.Misfits fault → P fault := by
  rintro entry hentry fault (hmisfits | hmisfits)
  · exact hnode fault (.key hentry hmisfits)
  · exact hnode fault (.value hentry hmisfits)

-- The recursion is that of `build`.  One property is carried through the whole tree, and each part
-- is handed what is known of the misfits of the node that it belongs to.
mutual

theorem letsOut_build {node : Node} (hnode : ∀ fault, node.Misfits fault → P fault) (depth : Nat)
    (isKey : Bool) : Built.LetsOut P (build depth isKey node) := by
  match node, hnode with
  | .scalar tag s, hnode =>
      have hread : Yaml.LetsOut P (Content.read tag s) :=
        letsOut_iff.mpr fun fault hread => hnode fault (.scalar hread)
      rw [build]
      split
      · exact .ok _
      · split
        · exact .placed hread _
        · exact .placed hread _
  | .sequence tag items, hnode =>
      have hitems := forall_items hnode
      rw [build.eq_def]
      dsimp only
      split
      · exact Built.LetsOut.map (.all (letsOut_buildItems hitems _)) _
      · exact Built.LetsOut.map (.all (letsOut_buildPairs hitems _)) _
      · exact .placed (.refuse _) _
      · exact .placed (.refuse _) _
      · refine letsOut_ofMainText _ _ fun s fault htext => ?_
        cases htext
  | .mapping tag entries, hnode =>
      have hentries := forall_entries hnode
      have hparts := letsOut_buildEntries hentries (depth + 1)
      have hcontent : Built.LetsOut P
          (match buildEntries (depth + 1) entries with
          | .error f => .placed (depth + 1) (.error f)
          | .ok (merged, own) => (Built.all (merged ++ own)).map Entries.ofPairs) := by
        cases hbuilt : buildEntries (depth + 1) entries with
        | error f =>
            have hfailure : Yields P (fun _ => True) (.error f : Result Entries) :=
              hparts.error hbuilt
            exact .placed hfailure.1 _
        | ok parts => exact Built.LetsOut.map (.all (hparts.2 parts hbuilt)) _
      rw [build.eq_def]
      dsimp only
      split
      · exact hcontent.map _
      · exact hcontent.map _
      · exact .placed (.refuse _) _
      · exact .placed (.refuse _) _
      · refine letsOut_ofMainText _ _ fun s fault hmain hread => ?_
        exact hnode fault (.main hmain hread)
  | .enclosing anchor tag, hnode =>
      exact .placed (.refuse _) _
termination_by structural node

theorem letsOut_buildItems {items : List Node}
    (hitems : ∀ item ∈ items, ∀ fault, item.Misfits fault → P fault) (depth : Nat) :
    ∀ b ∈ buildItems depth items, Built.LetsOut P b := by
  match items, hitems with
  | [], hitems => simp [buildItems]
  | item :: rest, hitems =>
      obtain ⟨hitem, hrest⟩ := List.forall_mem_cons.mp hitems
      rw [buildItems]
      exact List.forall_mem_cons.mpr
        ⟨letsOut_build hitem depth false, letsOut_buildItems hrest depth⟩
termination_by structural items

theorem letsOut_buildEntries {entries : List (Node × Node)}
    (hentries : ∀ entry ∈ entries, ∀ fault,
      entry.1.Misfits fault ∨ entry.2.Misfits fault → P fault) (depth : Nat) :
    Yields P (fun parts => ∀ b ∈ parts.1 ++ parts.2, Built.LetsOut P b)
      (buildEntries depth entries) := by
  match entries, hentries with
  | [], hentries => exact .ok (by simp)
  | (key, v) :: rest, hentries =>
      obtain ⟨hentry, hrest⟩ := List.forall_mem_cons.mp hentries
      have hkey : ∀ fault, key.Misfits fault → P fault := fun fault h => hentry fault (.inl h)
      have hvalue : ∀ fault, v.Misfits fault → P fault := fun fault h => hentry fault (.inr h)
      have hmore := letsOut_buildEntries hrest depth
      rw [buildEntries.eq_def]
      dsimp only
      split
      · have hmerged := letsOut_mergedEntries hvalue depth
        cases hbuilt : mergedEntries depth v with
        | error f => exact hmerged.error hbuilt
        | ok merged =>
            refine hmore.bind fun parts hparts => .ok ?_
            rw [List.append_assoc]
            exact List.forall_mem_append.mpr ⟨hmerged.2 merged hbuilt, hparts⟩
      · have hfirst := letsOut_entry depth (letsOut_build hkey depth true)
          (letsOut_build hvalue depth false)
        cases hbuilt : buildEntries depth rest with
        | error f => exact hmore.error hbuilt
        | ok parts =>
            obtain ⟨hmerged, hown⟩ := List.forall_mem_append.mp (hmore.2 parts hbuilt)
            refine .ok ?_
            exact List.forall_mem_append.mpr ⟨hmerged, List.forall_mem_cons.mpr ⟨hfirst, hown⟩⟩
termination_by structural entries

theorem letsOut_mergedEntries {node : Node} (hnode : ∀ fault, node.Misfits fault → P fault)
    (depth : Nat) :
    Yields P (fun parts => ∀ b ∈ parts, Built.LetsOut P b) (mergedEntries depth node) := by
  match node, hnode with
  | .mapping tag entries, hnode =>
      exact (letsOut_buildEntries (forall_entries hnode) depth).bind fun _ hparts => .ok hparts
  | .sequence tag items, hnode =>
      refine (letsOut_mergedItems (forall_items hnode) depth).bind fun parts hparts => .ok ?_
      intro b hb
      obtain ⟨part, hpart, hb⟩ := List.mem_flatten.mp hb
      exact hparts part (List.mem_reverse.mp hpart) b hb
  | .scalar tag s, hnode => exact .refuse _
  | .enclosing anchor tag, hnode => exact .refuse _
termination_by structural node

theorem letsOut_mergedItems {items : List Node}
    (hitems : ∀ item ∈ items, ∀ fault, item.Misfits fault → P fault) (depth : Nat) :
    Yields P (fun parts => ∀ part ∈ parts, ∀ b ∈ part, Built.LetsOut P b)
      (mergedItems depth items) := by
  match items, hitems with
  | [], hitems => exact .ok (by simp)
  | .mapping tag entries :: rest, hitems =>
      obtain ⟨hitem, hrest⟩ := List.forall_mem_cons.mp hitems
      refine (letsOut_buildEntries (forall_entries hitem) depth).bind fun part hpart => ?_
      refine (letsOut_mergedItems hrest depth).bind fun parts hparts => .ok ?_
      exact List.forall_mem_cons.mpr ⟨hpart, hparts⟩
  | .sequence tag inner :: rest, hitems => exact .refuse _
  | .scalar tag s :: rest, hitems => exact .refuse _
  | .enclosing anchor tag :: rest, hitems => exact .refuse _
termination_by structural items

theorem letsOut_buildPairs {items : List Node}
    (hitems : ∀ item ∈ items, ∀ fault, item.Misfits fault → P fault) (depth : Nat) :
    ∀ b ∈ buildPairs depth items, Built.LetsOut P b := by
  match items, hitems with
  | [], hitems => simp [buildPairs]
  | item :: rest, hitems =>
      obtain ⟨hitem, hrest⟩ := List.forall_mem_cons.mp hitems
      rw [buildPairs.eq_def]
      refine List.forall_mem_cons.mpr ⟨?_, letsOut_buildPairs hrest depth⟩
      match item, hitem with
      | .mapping tag [(key, v)], hitem =>
          have hentry := List.forall_mem_singleton.mp (forall_entries hitem)
          have hkey : ∀ fault, key.Misfits fault → P fault := fun fault h => hentry fault (.inl h)
          have hvalue : ∀ fault, v.Misfits fault → P fault := fun fault h => hentry fault (.inr h)
          exact ((letsOut_build hkey depth false).both (letsOut_build hvalue depth false)).map _
      | .mapping tag [], hitem => exact .placed (.refuse _) _
      | .mapping tag (_ :: _ :: _), hitem => exact .placed (.refuse _) _
      | .sequence tag inner, hitem => exact .placed (.refuse _) _
      | .scalar tag s, hitem => exact .placed (.refuse _) _
      | .enclosing anchor tag, hitem => exact .placed (.refuse _) _
termination_by structural items

end

end Node

/-! ## Sources -/

/-- A source has a misfit where scanning it lets one out, or in the tree of its document. -/
inductive Misfit (source : Source) : Fault → Prop where
  | scanned {fault : Fault} (htokens : source.tokens.2 = some (.misfit fault))
      (hscan : ScanMisfit fault) : Misfit source fault
  | built {root : Node} {fault : Fault}
      (hroot : Node.ofTokens source.tokens.1 source.tokens.2 = .ok (some root))
      (hmisfits : root.Misfits fault) : Misfit source fault

theorem all_isReadable_of_ofTokens {text : String} {root : Option Node}
    (hroot : Node.ofTokens (tokens text).1 (tokens text).2 = .ok root) :
    text.toList.all isReadable = true := by
  cases hreadable : text.toList.all isReadable with
  | true => rfl
  | false =>
      simp only [tokens, Source.ofText, hreadable] at hroot
      cases hroot

/-- A file that holds a text is read like the text, if there is nothing unprintable in it. -/
theorem readFile_eq {content : List UInt8} {text : String} (htext : Text.ofBytes content = .ok text)
    (hreadable : text.toList.all isReadable = true) : readFile content = read text := by
  have hsource : Source.ofFile content = .ofText text := by
    simp [Source.ofFile, Source.ofLoads, Source.ofText, htext, hreadable]
  rw [readFile, hsource, read]

/-- The kinds of all faults that reading a text can fail with. -/
def misfitKinds : List FaultKind :=
  [.value, .overflow, .index, .key, .missingAttribute]

theorem Content.misfitKinds_subset (tag : Tag) : Content.misfitKinds tag ⊆ Yaml.misfitKinds := by
  cases tag <;> simp [Content.misfitKinds, Yaml.misfitKinds]

theorem ScanMisfit.kind {fault : Fault} (hscan : ScanMisfit fault) : fault.kind ∈ misfitKinds := by
  cases hscan with
  | character hcode =>
      unfold QuotedScalar.characterOfCode at hcode
      split at hcode
      · cases hcode
        simp [misfitKinds]
      · split at hcode
        · cases hcode
          simp [misfitKinds, Fault.ofValue]
        · cases hcode
  | version hcount => simp [misfitKinds, WholeText.tooLong, Fault.ofValue]

theorem Node.Misfits.kind {node : Node} {fault : Fault} (hmisfits : node.Misfits fault) :
    fault.kind ∈ misfitKinds := by
  induction hmisfits with
  | scalar hread => exact Content.misfitKinds_subset _ (Content.kind_of_read hread)
  | main hmain hread => exact Content.misfitKinds_subset _ (Content.kind_of_read hread)
  | item hitem hmisfits ih => exact ih
  | key hentry hmisfits ih => exact ih
  | value hentry hmisfits ih => exact ih

theorem Misfit.kind {source : Source} {fault : Fault} (hmisfit : Misfit source fault) :
    fault.kind ∈ misfitKinds := by
  cases hmisfit with
  | scanned htokens hscan => exact hscan.kind
  | built hroot hmisfits => exact hmisfits.kind

end Yaml

end ModelPlaybook
