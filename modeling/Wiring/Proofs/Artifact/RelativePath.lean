import Wiring.Artifact
import Wiring.Proofs.FilePath.Joining
import Wiring.Proofs.Text.SnakeCase
import Wiring.Source.Identifier

/-! Where artifacts with proper names go: below the directory of the store, to a file of its own kind
of name.
-/

namespace Wiring

namespace Source.Identifier

open Unicode

/-- Each character of a name continues names, for what starts a name also continues one. -/
theorem isContinue_of_mem {chars : List Char} {char : Char} (name : isName chars = true)
    (member : char ∈ chars)
    : isContinue char = true := by
  cases chars with
  | nil => simp [isName] at name
  | cons first rest =>
      simp only [isName, startsName, Bool.and_eq_true, Bool.or_eq_true, decide_eq_true_eq,
        List.all_eq_true] at name
      rcases List.mem_cons.mp member with rfl | later
      · rcases name.1 with rfl | start
        · decide
        · exact isContinue_of_isStart start
      · exact name.2 char later

/-- A name is an identifier, since it has no raw prefix. -/
theorem isToken_of_isName {text : String} (named : isName text.toList = true)
    : isToken text = true := by
  unfold isToken
  split
  · rename_i rest raw
    rw [raw] at named
    exact absurd (isContinue_of_mem named (by simp : '#' ∈ _)) (by decide)
  · exact named

/-- Identifiers hold nothing but the characters of names and the mark of a raw one, by the two forms of
a token.
-/
theorem isContinue_of_mem_token {text : String} {char : Char} (token : isToken text = true)
    (member : char ∈ text.toList)
    : isContinue char = true ∨ char = '#' := by
  unfold isToken at token
  split at token
  · rename_i rest raw
    have name : isName rest = true := by
      simp only [Bool.and_eq_true] at token
      exact token.1
    rw [raw] at member
    simp only [List.mem_cons] at member
    rcases member with rfl | rfl | later
    · exact .inl (by decide)
    · exact .inr rfl
    · exact .inl (isContinue_of_mem name later)
  · exact .inl (isContinue_of_mem token member)

/-- No identifier is empty. -/
theorem ne_empty_of_isToken {text : String} (token : isToken text = true)
    : text ≠ "" := by
  rintro rfl
  exact absurd token (by decide)

/-- An identifier is one name in a path. -/
theorem isSegment_of_isToken {text : String} (token : isToken text = true)
    : FilePath.IsSegment text where
  noSlash member := by
    have char := isContinue_of_mem_token token member
    exact absurd char (by decide)
  written := ne_empty_of_isToken token
  noDot := by
    rintro rfl
    exact absurd token (by decide)
  noDots := by
    rintro rfl
    exact absurd token (by decide)

end Source.Identifier

namespace Artifact

open Source

/-- The name and the segments of the module that become directories are identifiers. -/
structure IsNamed (artifact : Artifact) : Prop where
  home : ∀ segment ∈ directories artifact.home, Identifier.isToken segment = true
  name : Identifier.isToken artifact.name = true

instance (artifact : Artifact) : Decidable artifact.IsNamed :=
  decidable_of_iff
    ((∀ segment ∈ directories artifact.home, Identifier.isToken segment = true)
      ∧ Identifier.isToken artifact.name = true)
    ⟨fun ⟨home, name⟩ => ⟨home, name⟩, fun ⟨home, name⟩ => ⟨home, name⟩⟩

/-- The name of an artifact's file: the folded name, and the extension. -/
def fileName (artifact : Artifact) : String :=
  SnakeCase.ofName artifact.name ++ ".rs"

/-- The names that lead to the file of the artifact from the directory of the store. -/
def pathNames (artifact : Artifact) : List String :=
  directories artifact.home ++ [artifact.fileName]

variable {artifact : Artifact}

/-- The directories and the file are one name each, so the path goes down from the directory of the
store, step by step.
-/
structure GoesDown (artifact : Artifact) : Prop where
  home : ∀ segment ∈ directories artifact.home, FilePath.IsSegment segment
  file : FilePath.IsSegment artifact.fileName

/-- No name makes a file of several steps, unless it has a slash. Neither an underscore nor a small
letter is one, and the extension keeps the name from being a dot.
-/
theorem isSegment_fileName (noSlash : '/' ∉ artifact.name.toList)
    : FilePath.IsSegment artifact.fileName := by
  have ends : artifact.fileName.toList.getLast? = some 's' := by simp [fileName]
  refine ⟨?_, ?_, ?_, ?_⟩
  · intro slash
    simp only [fileName, String.toList_append, List.mem_append] at slash
    rcases slash with inName | inExtension
    · rcases SnakeCase.mem_ofName inName with mark | kept | small
      · exact absurd mark (by decide)
      · exact noSlash kept
      · exact absurd small (by decide)
    · exact absurd inExtension (by decide)
  all_goals
    intro same
    rw [same] at ends
    exact absurd ends (by decide)

/-- An artifact of identifiers goes down, since no identifier is a dot or has a slash. -/
theorem IsNamed.goesDown (named : artifact.IsNamed) : artifact.GoesDown where
  home segment member := Identifier.isSegment_of_isToken (named.home segment member)
  file := isSegment_fileName (Identifier.isSegment_of_isToken named.name).noSlash

/-- The path of an artifact has the directories of the module, then the name of the file. -/
theorem GoesDown.steps_relativePath (down : artifact.GoesDown)
    : artifact.relativePath.steps = artifact.pathNames.map .name := by
  have steps := FilePath.steps_join_segment (.ofSegments (directories artifact.home)) down.file
  rw [FilePath.steps_ofSegments down.home] at steps
  simpa [relativePath, pathNames, fileName] using steps

/-- One path has the same names, however often it is asked for. -/
theorem GoesDown.pathNames_eq {artifact other : Artifact} (down : artifact.GoesDown)
    (otherDown : other.GoesDown) (same : artifact.relativePath.same other.relativePath = true)
    : artifact.pathNames = other.pathNames := by
  rw [FilePath.same, down.steps_relativePath, otherDown.steps_relativePath, decide_eq_true_eq] at same
  exact List.map_injective_iff.mpr (fun _ _ => PathStep.name.inj) same

/-- Artifacts whose paths have the same steps go to the same path. -/
theorem relativePath_eq_of_pathNames_eq {artifact other : Artifact}
    (same : artifact.pathNames = other.pathNames)
    : artifact.relativePath = other.relativePath := by
  obtain ⟨directories, files⟩ := List.append_singleton_inj.mp same
  simp only [fileName] at files
  rw [relativePath, relativePath, directories, files]

end Artifact

end Wiring
