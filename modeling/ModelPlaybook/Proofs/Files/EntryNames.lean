import ModelPlaybook.Model.Loading
import ModelPlaybook.Playbook.Loading
import Mathlib.Data.List.Infix

/-!
# Ids that reach the files

A model and a playbook are looked up by an id, which becomes the name of an entry in a directory.
An id has letters and digits, underscores, dots and dashes only, so that no lookup leaves the
directory.  One line feed behind an id slips through.
-/

namespace ModelPlaybook

/-! ## Paths of entries -/

theorem Path.parts_of_not_mem {name : String} (hname : '/' ∉ name.toList) :
    parts name = [name] := by
  simp [parts, List.splitOn_eq_singleton hname]

@[simp]
theorem Path.parts_child (directory name : String) :
    parts (FileTree.child directory name) = parts directory ++ parts name := by
  have htext : (FileTree.child directory name).toList = directory.toList ++ '/' :: name.toList := by
    simp [FileTree.child]
  rw [parts, htext, List.splitOn_append_cons_self, List.map_append]
  rfl

/-- A path has a name that is too long for the files. -/
def Path.IsTooLong (path : String) : Prop :=
  ∃ name ∈ parts path, FileTree.nameLimit < name.utf8ByteSize

theorem FileTree.isDirectory_of_find {files : FileTree} {path : String} {found : Option FileNode}
    (hfind : files.find path = .ok found) :
    files.isDirectory path = .ok (found == some .directory) := by
  rw [isDirectory, hfind]
  rfl

/-- A path leads to an entry of a directory, and not through any other directory. -/
def IsDirectChild (directory path : String) : Prop :=
  ∃ name, Path.parts path = Path.parts directory ++ [name] ∧
    name ≠ "" ∧ name ≠ "." ∧ name ≠ ".."

/-- The same things lie at a path and below it. -/
def FileTree.AgreeWithin (path : String) (files files' : FileTree) : Prop :=
  ∀ p, p = path ∨ isBelow path p = true → files.find p = files'.find p

theorem FileTree.isBelow_child (directory name : String) :
    isBelow directory (child directory name) = true := by
  simp [isBelow, child, List.isPrefixOf_iff_prefix]

/-! ## Names of entries -/

/-- The names that an id may have. -/
structure IsEntryId (id : String) : Prop where
  starts : ∃ c rest, id.toList = c :: rest ∧ Text.isAsciiLetterOrDigit c = true
  plain : ∀ c ∈ id.toList, Text.isAsciiLetterOrDigit c = true ∨ c ∈ ['_', '.', '-']
  undotted : ¬ ['.', '.'] <:+: id.toList

/-- An id that is let through, which a line feed may follow. -/
def IsAdmitted (id : String) : Prop :=
  IsEntryId id ∨ ∃ name, IsEntryId name ∧ id = name ++ "\n"

theorem Text.isEntryName.hasDoubleDot_iff {cs : List Char} :
    hasDoubleDot cs = true ↔ ['.', '.'] <:+: cs := by
  induction cs with
  | nil => simp [hasDoubleDot]
  | cons c rest ih =>
      rw [List.infix_cons_iff, ← ih]
      by_cases hdots : ['.', '.'] <+: c :: rest
      · obtain ⟨tail, htail⟩ := hdots
        simp [← htail, hasDoubleDot]
      · rw [hasDoubleDot]
        · simp [hdots]
        · rintro tail rfl rfl
          exact hdots ⟨tail, rfl⟩

theorem isEntryId_ofList_iff {cs : List Char} :
    IsEntryId (String.ofList cs) ↔
      (cs.head?.map Text.isAsciiLetterOrDigit).getD false = true ∧
        (∀ c ∈ cs, (Text.isAsciiLetterOrDigit c || ['_', '.', '-'].contains c) = true) ∧
        Text.isEntryName.hasDoubleDot cs = false := by
  have hstarts : (∃ c rest, cs = c :: rest ∧ Text.isAsciiLetterOrDigit c = true) ↔
      (cs.head?.map Text.isAsciiLetterOrDigit).getD false = true := by
    cases cs with
    | nil => simp
    | cons c rest => simp
  have hplain : ∀ c, (Text.isAsciiLetterOrDigit c || ['_', '.', '-'].contains c) = true ↔
      (Text.isAsciiLetterOrDigit c = true ∨ c ∈ ['_', '.', '-']) := by
    intro c
    rw [Bool.or_eq_true, List.contains_iff_mem]
  have hdots : Text.isEntryName.hasDoubleDot cs = false ↔ ¬ ['.', '.'] <:+: cs := by
    rw [← Text.isEntryName.hasDoubleDot_iff, Bool.not_eq_true]
  rw [← hstarts, hdots]
  simp only [hplain]
  constructor
  · intro hid
    have hlist := String.toList_ofList (l := cs)
    exact ⟨hlist ▸ hid.starts, hlist ▸ hid.plain, hlist ▸ hid.undotted⟩
  · rintro ⟨hhead, hall, hsingle⟩
    constructor <;> rwa [String.toList_ofList]

/-- Letters and digits alone are a name. -/
theorem isEntryId_of_all {id : String} (hid : id ≠ "")
    (hall : ∀ c ∈ id.toList, Text.isAsciiLetterOrDigit c = true) : IsEntryId id := by
  constructor
  · cases hlist : id.toList with
    | nil => exact absurd (String.toList_eq_nil_iff.mp hlist) hid
    | cons c rest => exact ⟨c, rest, rfl, hall c (by simp [hlist])⟩
  · intro c hc
    exact .inl (hall c hc)
  · intro hdots
    have hdot := hall '.' (hdots.subset (by simp))
    simp [Text.isAsciiLetterOrDigit] at hdot

theorem IsEntryId.last_ne {id : String} (hid : IsEntryId id) : id.toList.getLast? ≠ some '\n' := by
  intro hlast
  have hmem := List.mem_of_getLast? hlast
  rcases hid.plain _ hmem with hplain | hplain
  · simp [Text.isAsciiLetterOrDigit] at hplain
  · simp at hplain

theorem Text.hasDoubleDot_concat (cs : List Char) :
    isEntryName.hasDoubleDot (cs ++ ['\n']) = isEntryName.hasDoubleDot cs := by
  rw [Bool.eq_iff_iff, isEntryName.hasDoubleDot_iff, isEntryName.hasDoubleDot_iff,
    List.infix_concat_iff]
  have hsuffix : ¬ ['.', '.'] <:+ cs ++ ['\n'] := by
    intro hends
    have hlast := hends.getLast (by simp)
    simp at hlast
  simp [hsuffix]

/-- The check of an id takes away one line feed at the end before it looks at the characters. -/
theorem Text.isEntryName_iff {id : String} : isEntryName id = true ↔ IsAdmitted id := by
  by_cases hlast : id.toList.getLast? = some '\n'
  · obtain ⟨cs, hcs⟩ := List.getLast?_eq_some_iff.mp hlast
    have hid : id = String.ofList cs ++ "\n" := by
      rw [← String.toList_inj]
      simp [hcs]
    have hcheck : isEntryName id = true ↔ IsEntryId (String.ofList cs) := by
      simp [isEntryName, hcs, hasDoubleDot_concat, isEntryId_ofList_iff, and_assoc]
    rw [hcheck]
    constructor
    · intro hname
      exact .inr ⟨_, hname, hid⟩
    · rintro (hname | ⟨name, hname, hother⟩)
      · exact absurd hlast hname.last_ne
      · have hsame := String.append_left_inj _ |>.mp (hid.symm.trans hother)
        rwa [hsame]
  · have hcheck : isEntryName id = true ↔ IsEntryId id := by
      rw [← String.ofList_toList (s := id), isEntryId_ofList_iff]
      simp [isEntryName, hlast, and_assoc]
    rw [hcheck]
    constructor
    · exact .inl
    · rintro (hname | ⟨name, hname, rfl⟩)
      · exact hname
      · simp at hlast

theorem IsAdmitted.slash_not_mem {id : String} (hid : IsAdmitted id) : '/' ∉ id.toList := by
  have hplain : ∀ name, IsEntryId name → '/' ∉ name.toList := by
    intro name hname hmem
    rcases hname.plain _ hmem with hc | hc
    · simp [Text.isAsciiLetterOrDigit] at hc
    · simp at hc
  rcases hid with hname | ⟨name, hname, rfl⟩
  · exact hplain id hname
  · simpa using hplain name hname

/-! ## Lookups -/

/-- What loading answers is decided at one path of the tree and below it: a fault at the path is
raised, and nothing at the path is reported. -/
structure LooksAt {α : Type} (load : FileTree → Except Error α) (path : String) (absent : Error) :
    Prop where
  raises : ∀ files fault, files.find path = .error fault → load files = .error (.fault fault)
  reports : ∀ files, files.find path = .ok none → load files = .error absent
  confined : ∀ files files', FileTree.AgreeWithin path files files' → load files = load files'

/-- Loading refuses without a look at the tree. -/
def Refuses {α : Type} (load : FileTree → Except Error α) (refusal : Error) : Prop :=
  ∀ files, load files = .error refusal

theorem FileTree.find_empty (path : String) :
    FileTree.empty.find path = .ok none ∨ ∃ fault, FileTree.empty.find path = .error fault := by
  unfold find
  split
  · exact .inr ⟨_, rfl⟩
  · exact .inl rfl

theorem LooksAt.not_refuses {α : Type} {load : FileTree → Except Error α} {path : String}
    {absent refusal : Error} (hlooks : LooksAt load path absent) (hother : absent ≠ refusal)
    (hkind : ∀ fault, refusal ≠ .fault fault) : ¬ Refuses load refusal := by
  intro hrefuses
  have hrefusal := hrefuses FileTree.empty
  rcases FileTree.find_empty path with hnone | ⟨fault, hfault⟩
  · rw [hlooks.reports _ hnone] at hrefusal
    exact hother (Except.error.inj hrefusal)
  · rw [hlooks.raises _ fault hfault] at hrefusal
    exact hkind fault (Except.error.inj hrefusal).symm

/-- The answers to an id that is refused, by the two loaders. -/
def Model.refusal (id : String) : Error :=
  .modelLoad ("Invalid model id: " ++ (Value.text id).shown) (some id) []

def Playbook.refusal (id : String) : Error :=
  .playbookNotFound (.text id) none

/-- The answer when no model lies at a path. -/
def Model.absence (path id : String) : Error :=
  .modelLoad ("Model not found: " ++ path) (some id) []

theorem Model.absence_ne_refusal (path id : String) : absence path id ≠ refusal id := by
  intro hsame
  have hmessage : "Model not found: " ++ path = "Invalid model id: " ++ (Value.text id).shown := by
    simpa [absence, refusal] using hsame
  have hhead := congrArg (fun s => s.toList.head?) hmessage
  simp at hhead

theorem name_of_isAdmitted {id : String} (hid : IsAdmitted id) :
    (Value.text id).text?.filter Text.isEntryName = some id := by
  rw [Value.text?, Option.filter_some, if_pos (Text.isEntryName_iff.mpr hid)]

theorem name_of_not_isAdmitted {id : String} (hid : ¬ IsAdmitted id) :
    (Value.text id).text?.filter Text.isEntryName = none := by
  rw [Value.text?, Option.filter_some, if_neg fun hcheck => hid (Text.isEntryName_iff.mp hcheck)]

theorem FileTree.AgreeWithin.isDirectory_eq {path : String} {files files' : FileTree}
    (hagree : AgreeWithin path files files') :
    files.isDirectory path = files'.isDirectory path := by
  rw [isDirectory, isDirectory, hagree path (.inl rfl)]

theorem FileTree.AgreeWithin.file?_eq {path p : String} {files files' : FileTree}
    (hagree : AgreeWithin path files files') (hp : p = path ∨ isBelow path p = true) :
    files.file? p = files'.file? p := by
  rw [file?, file?, hagree p hp]

theorem Model.load_of_isAdmitted {directory id : String} (hid : IsAdmitted id) (files : FileTree) :
    load files directory (.text id) = ofDirectory files (FileTree.child directory id) id := by
  rw [load, name_of_isAdmitted hid]

theorem Model.looksAt_of_isAdmitted (directory : String) {id : String} (hid : IsAdmitted id) :
    LooksAt (load · directory (.text id)) (FileTree.child directory id)
      (absence (FileTree.child directory id) id) := by
  constructor
  · intro files fault hfind
    have hplace : files.isDirectory (FileTree.child directory id) = .error fault := by
      rw [FileTree.isDirectory, hfind]
      rfl
    simp only [load_of_isAdmitted hid, ofDirectory, hplace]
    rfl
  · intro files hfind
    simp only [load_of_isAdmitted hid, ofDirectory, FileTree.isDirectory_of_find hfind]
    rfl
  · intro files files' hagree
    have hmanifest := hagree.file?_eq (.inr (FileTree.isBelow_child _ manifestName))
    have hlogic := hagree.file?_eq (.inr (FileTree.isBelow_child _ logicName))
    simp only [load_of_isAdmitted hid, ofDirectory, hagree.isDirectory_eq, hmanifest, hlogic]

theorem Playbook.looksAt_of_isAdmitted (directory : String) {id : String} (hid : IsAdmitted id) :
    LooksAt (load · (some directory) (.text id)) (pathOf directory id)
      (.playbookNotFound (.text id) (some (pathOf directory id))) := by
  constructor
  · intro files fault hfind
    have hfile : files.file? (pathOf directory id) = .error fault := by
      rw [FileTree.file?, hfind]
      rfl
    simp only [load, name_of_isAdmitted hid, hfile]
  · intro files hfind
    have hfile : files.file? (pathOf directory id) = .ok none := by
      rw [FileTree.file?, hfind]
      rfl
    simp only [load, name_of_isAdmitted hid, hfile]
  · intro files files' hagree
    have hfile := hagree.file?_eq (.inl rfl)
    simp only [load, name_of_isAdmitted hid, hfile]

theorem Model.refuses_of_not_isAdmitted (directory : String) {id : String} (hid : ¬ IsAdmitted id) :
    Refuses (load · directory (.text id)) (refusal id) := by
  intro files
  simp only [load, name_of_not_isAdmitted hid]
  rfl

theorem Playbook.refuses_of_not_isAdmitted (directory : String) {id : String}
    (hid : ¬ IsAdmitted id) : Refuses (load · (some directory) (.text id)) (refusal id) := by
  intro files
  simp only [load, name_of_not_isAdmitted hid]
  rfl

theorem isDirectChild_child {directory name : String} (hslash : '/' ∉ name.toList)
    (hempty : name ≠ "") (hdot : name ≠ ".") (hdots : name ≠ "..") :
    IsDirectChild directory (FileTree.child directory name) := by
  refine ⟨name, ?_, hempty, hdot, hdots⟩
  rw [Path.parts_child, Path.parts_of_not_mem hslash]

/-- The first character of an id that is let through is a letter or a digit. -/
theorem IsAdmitted.starts {id : String} (hid : IsAdmitted id) :
    ∃ c rest, id.toList = c :: rest ∧ Text.isAsciiLetterOrDigit c = true := by
  rcases hid with hname | ⟨name, hname, rfl⟩
  · exact hname.starts
  · obtain ⟨c, rest, hlist, hc⟩ := hname.starts
    exact ⟨c, rest ++ ['\n'], by simp [hlist], hc⟩

theorem IsAdmitted.isDirectChild (directory : String) {id ending : String} (hid : IsAdmitted id)
    (hslash : '/' ∉ ending.toList) :
    IsDirectChild directory (FileTree.child directory (id ++ ending)) := by
  obtain ⟨c, rest, hlist, hc⟩ := hid.starts
  have hhead : (id ++ ending).toList.head? = some c := by
    simp [hlist]
  have hother : ∀ name : String, name.toList.head? ≠ some c → id ++ ending ≠ name := by
    rintro name hname rfl
    exact hname hhead
  have hdot : c ≠ '.' := by
    rintro rfl
    simp [Text.isAsciiLetterOrDigit] at hc
  apply isDirectChild_child
  · simpa [hslash] using hid.slash_not_mem
  · exact hother _ (by simp)
  · exact hother _ (by simpa using hdot.symm)
  · exact hother _ (by simpa using hdot.symm)

theorem Model.not_refuses_of_isAdmitted (directory : String) {id : String} (hid : IsAdmitted id) :
    ¬ Refuses (load · directory (.text id)) (refusal id) := by
  apply (looksAt_of_isAdmitted directory hid).not_refuses
  · exact absence_ne_refusal _ _
  · simp [refusal]

theorem Playbook.not_refuses_of_isAdmitted (directory : String) {id : String}
    (hid : IsAdmitted id) : ¬ Refuses (load · (some directory) (.text id)) (refusal id) := by
  apply (looksAt_of_isAdmitted directory hid).not_refuses
  · simp [refusal]
  · simp [refusal]

theorem Model.looksAt_iff (directory id : String) :
    LooksAt (load · directory (.text id)) (FileTree.child directory id)
      (absence (FileTree.child directory id) id) ↔ IsAdmitted id := by
  refine ⟨fun hlooks => ?_, looksAt_of_isAdmitted directory⟩
  by_contra hid
  have hrefuses := refuses_of_not_isAdmitted directory hid
  exact hlooks.not_refuses (absence_ne_refusal _ _) (by simp [refusal]) hrefuses

theorem Playbook.looksAt_iff (directory id : String) :
    LooksAt (load · (some directory) (.text id)) (pathOf directory id)
      (.playbookNotFound (.text id) (some (pathOf directory id))) ↔ IsAdmitted id := by
  refine ⟨fun hlooks => ?_, looksAt_of_isAdmitted directory⟩
  by_contra hid
  have hrefuses := refuses_of_not_isAdmitted directory hid
  exact hlooks.not_refuses (by simp [refusal]) (by simp [refusal]) hrefuses

theorem Model.refuses_iff (directory id : String) :
    Refuses (load · directory (.text id)) (refusal id) ↔ ¬ IsAdmitted id :=
  ⟨fun hrefuses hid => not_refuses_of_isAdmitted directory hid hrefuses,
    refuses_of_not_isAdmitted directory⟩

theorem Playbook.refuses_iff (directory id : String) :
    Refuses (load · (some directory) (.text id)) (refusal id) ↔ ¬ IsAdmitted id :=
  ⟨fun hrefuses hid => not_refuses_of_isAdmitted directory hid hrefuses,
    refuses_of_not_isAdmitted directory⟩

/-- A line feed is the only thing that the check of an id overlooks. -/
theorem isAdmitted_iff_isEntryId {id : String} :
    (IsAdmitted id ↔ IsEntryId id) ↔ ∀ name, IsEntryId name → id ≠ name ++ "\n" := by
  constructor
  · rintro hsame name hname rfl
    have hid := hsame.mp (.inr ⟨name, hname, rfl⟩)
    exact hid.last_ne (by simp)
  · intro hother
    refine ⟨?_, .inl⟩
    rintro (hid | ⟨name, hname, hid⟩)
    · exact hid
    · exact absurd hid (hother name hname)

/-- A loader looks at an entry of its directory just if the id is let through, and refuses every
other id without a look.  The ids that are let through are the names of entries, but for a line feed
behind such a name. -/
theorem ids_reach_direct_children (directory id : String) :
    (LooksAt (Model.load · directory (.text id)) (FileTree.child directory id)
        (Model.absence (FileTree.child directory id) id) ↔ IsAdmitted id) ∧
    (Refuses (Model.load · directory (.text id)) (Model.refusal id) ↔ ¬ IsAdmitted id) ∧
    (LooksAt (Playbook.load · (some directory) (.text id)) (Playbook.pathOf directory id)
        (.playbookNotFound (.text id) (some (Playbook.pathOf directory id))) ↔ IsAdmitted id) ∧
    (Refuses (Playbook.load · (some directory) (.text id)) (Playbook.refusal id) ↔
      ¬ IsAdmitted id) ∧
    (IsAdmitted id → IsDirectChild directory (FileTree.child directory id) ∧
      IsDirectChild directory (Playbook.pathOf directory id)) ∧
    ((IsAdmitted id ↔ IsEntryId id) ↔ ∀ name, IsEntryId name → id ≠ name ++ "\n") := by
  refine ⟨Model.looksAt_iff directory id, Model.refuses_iff directory id,
    Playbook.looksAt_iff directory id, Playbook.refuses_iff directory id, ?_,
    isAdmitted_iff_isEntryId⟩
  intro hid
  have hchild := hid.isDirectChild directory (show '/' ∉ "".toList by simp)
  rw [String.append_empty] at hchild
  exact ⟨hchild, hid.isDirectChild directory (by simp)⟩

/-- The id `m` with a line feed behind it is no name of an entry, and both loaders look for it. -/
theorem feeding_id_looked_up :
    ¬ IsEntryId "m\n" ∧
    Model.load FileTree.empty "models" (.text "m\n") =
      .error (.modelLoad "Model not found: models/m\n" (some "m\n") []) ∧
    ¬ Refuses (Model.load · "models" (.text "m\n")) (Model.refusal "m\n") ∧
    Playbook.load FileTree.empty (some "playbooks") (.text "m\n") =
      .error (.playbookNotFound (.text "m\n") (some "playbooks/m\n.yaml")) ∧
    ¬ Refuses (Playbook.load · (some "playbooks") (.text "m\n")) (Playbook.refusal "m\n") := by
  have hname : IsEntryId "m" := isEntryId_of_all (by simp) (by simp [Text.isAsciiLetterOrDigit])
  have hid : IsAdmitted "m\n" := .inr ⟨"m", hname, rfl⟩
  refine ⟨fun hentry => hentry.last_ne rfl, ?_, ?_, ?_, ?_⟩
  · exact (Model.looksAt_of_isAdmitted "models" hid).reports _ (by decide)
  · exact Model.not_refuses_of_isAdmitted "models" hid
  · exact (Playbook.looksAt_of_isAdmitted "playbooks" hid).reports _ (by decide)
  · exact Playbook.not_refuses_of_isAdmitted "playbooks" hid

end ModelPlaybook
