import Mathlib.Data.List.DropRight
import ModelPlaybook.Text.Blank

/-!
# Trimmed texts

A text is trimmed if no blank stands at either end.  Trimming gives such a text, and what it takes
off the ends is blank.
-/

namespace ModelPlaybook.Text

/-- No blank stands at either end of a text. -/
def IsTrimmed (s : String) : Prop :=
  (∀ c ∈ s.toList.head?, isBlank c = false) ∧ ∀ c ∈ s.toList.getLast?, isBlank c = false

theorem trimChars_eq_rdropWhile (cs : List Char) :
    trimChars cs = (cs.dropWhile isBlank).rdropWhile isBlank :=
  rfl

theorem isTrimmed_trim (s : String) : IsTrimmed (trim s) := by
  rw [IsTrimmed, trim, String.toList_ofList, trimChars_eq_rdropWhile]
  constructor
  · intro c hc
    have hprefix := List.rdropWhile_prefix isBlank (s.toList.dropWhile isBlank)
    have hhead : c ∈ (s.toList.dropWhile isBlank).head? := by
      obtain ⟨rest, hrest⟩ := hprefix
      rw [← hrest]
      exact List.mem_head?_append_of_mem_head? hc
    have hnot := List.head?_dropWhile_not isBlank s.toList
    rw [Option.mem_def.mp hhead] at hnot
    exact hnot
  · intro c hc
    obtain ⟨hne, rfl⟩ := List.mem_getLast?_eq_getLast hc
    simpa using List.rdropWhile_last_not isBlank _ hne

theorem trim_ne_empty {s : String} (hblank : isAllBlank s = false) : trim s ≠ "" := by
  intro hempty
  have hchars : trimChars s.toList = [] := by
    rw [trim] at hempty
    simpa using congrArg String.toList hempty
  rw [trimChars_eq_rdropWhile, List.rdropWhile_eq_nil_iff] at hchars
  have hnone : s.toList.dropWhile isBlank = [] := by
    by_contra hne
    have hhead := List.head_dropWhile_not isBlank hne
    rw [hchars _ (List.head_mem hne)] at hhead
    cases hhead
  have hall : isAllBlank s = true := by
    rw [isAllBlank, List.all_eq_true]
    exact List.dropWhile_eq_nil_iff.mp hnone
  rw [hall] at hblank
  cases hblank

theorem trimLeftChars_eq_self {cs : List Char} (hfirst : ∀ c ∈ cs.head?, isBlank c = false) :
    trimLeftChars cs = cs := by
  cases cs with
  | nil => rfl
  | cons c cs =>
      have hc : isBlank c = false := hfirst c rfl
      simp [trimLeftChars, hc]

theorem trim_eq_self {s : String} (htrimmed : IsTrimmed s) : trim s = s := by
  obtain ⟨hfirst, hlast⟩ := htrimmed
  have hright : s.toList.rdropWhile isBlank = s.toList := by
    rw [List.rdropWhile_eq_self_iff]
    intro hsome
    have hc := hlast _ (List.getLast?_eq_some_getLast hsome)
    simp [hc]
  rw [trim, trimChars, trimLeftChars_eq_self hfirst, trimRightChars]
  exact String.toList_inj.mp (by rw [String.toList_ofList]; exact hright)

/-- Only blanks are taken off the right end. -/
theorem exists_blanks_of_trimRightChars (cs : List Char) :
    ∃ blanks, (∀ c ∈ blanks, isBlank c = true) ∧ cs = trimRightChars cs ++ blanks := by
  have hblanks : ∀ c ∈ cs.rtakeWhile isBlank, isBlank c = true :=
    fun c hc => List.mem_rtakeWhile_imp hc
  have hsplit : cs = trimRightChars cs ++ cs.rtakeWhile isBlank :=
    List.rdropWhile_append_rtakeWhile.symm
  exact ⟨_, hblanks, hsplit⟩

end ModelPlaybook.Text
