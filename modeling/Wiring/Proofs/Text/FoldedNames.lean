import Wiring.Proofs.Artifact.RelativePath

/-! What snake case keeps of a name in ASCII: its letters, but for their case, and its underscores. All
that is brought in are further underscores between the words of the name. So names that go to one file
are the same up to case and underscores.
-/

namespace Wiring

namespace Unicode

variable {char : Char}

/-- In ASCII only the capitals are upper case. -/
theorem isUpper_of_ascii (ascii : char.toNat < 128)
    : isUpper char = char.isUpper := by
  have low : ¬127 < char.toNat := by omega
  simp [isUpper, low]

/-- Each of them has one small letter. -/
theorem lowerCase_of_ascii (ascii : char.toNat < 128)
    : lowerCase char = [char.toLower] :=
  if_pos (by omega)

/-- What the lower-case form of an ASCII character is. -/
structure IsLowered (char lowered : Char) : Prop where
  ascii : lowered.toNat < 128
  small : lowered.isUpper = false
  kept : char.isUpper = false → lowered = char
  mark : lowered = '_' ↔ char = '_'

instance (char lowered : Char) : Decidable (IsLowered char lowered) :=
  decidable_of_iff
    (lowered.toNat < 128
      ∧ lowered.isUpper = false
      ∧ (char.isUpper = false → lowered = char)
      ∧ (lowered = '_' ↔ char = '_'))
    ⟨fun ⟨ascii, small, kept, mark⟩ => ⟨ascii, small, kept, mark⟩,
      fun ⟨ascii, small, kept, mark⟩ => ⟨ascii, small, kept, mark⟩⟩

/-- What is known of lowered characters, decided for all codes at once. -/
theorem isLowered_ofNat_toLower
    : ∀ code < 128, IsLowered (Char.ofNat code) (Char.ofNat code).toLower := by
  decide

/-- The same for a character. -/
theorem isLowered_toLower (ascii : char.toNat < 128)
    : IsLowered char char.toLower := by
  have lowered := isLowered_ofNat_toLower char.toNat ascii
  rwa [Char.ofNat_toNat] at lowered

end Unicode

namespace SnakeCase

open Unicode

-----------------------------------------------------------------------------------------
-- Underscores between words
-----------------------------------------------------------------------------------------

/-- The marked characters are those of a text behind the previous character, with underscores put in: at
most one in front of a character, and only where neither it nor the character before it is an underscore.
-/
inductive Marks : Option Char → List Char → List Char → Prop
  | nil {previous : Option Char} : Marks previous [] []
  | joined {previous : Option Char} {char : Char} {rest marked : List Char}
    (later : Marks (some char) rest marked)
    : Marks previous (char :: rest) (char :: marked)
  | parted {before char : Char} {rest marked : List Char} (word : before ≠ '_') (nextWord : char ≠ '_')
    (later : Marks (some char) rest marked)
    : Marks (some before) (char :: rest) ('_' :: char :: marked)

/-- The characters other than underscores. -/
def unmarked (chars : List Char) : List Char :=
  chars.filter (· ≠ '_')

namespace Marks

variable {previous : Option Char} {chars marked : List Char}

/-- Marking adds underscores alone. -/
theorem mem (marks : Marks previous chars marked) {char : Char} (member : char ∈ marked)
    : char = '_' ∨ char ∈ chars := by
  induction marks with
  | nil => exact .inr member
  | joined later ih =>
      rcases List.mem_cons.mp member with rfl | member
      · exact .inr List.mem_cons_self
      · exact (ih member).imp_right (List.mem_cons_of_mem _)
  | parted word nextWord later ih =>
      rcases List.mem_cons.mp member with rfl | member
      · exact .inl rfl
      · rcases List.mem_cons.mp member with rfl | member
        · exact .inr List.mem_cons_self
        · exact (ih member).imp_right (List.mem_cons_of_mem _)

/-- Nothing but underscores is put in, by induction on the characters. -/
theorem unmarked_eq (marks : Marks previous chars marked)
    : unmarked marked = unmarked chars := by
  unfold unmarked at *
  induction marks with
  | nil => rfl
  | joined later ih => rw [List.filter_cons, List.filter_cons, ih]
  | parted word nextWord later ih =>
      rw [List.filter_cons_of_neg (by simp), List.filter_cons, List.filter_cons, ih]

end Marks

/-- A word begins behind another character than an underscore. -/
theorem exists_of_beginsWord {previous next : Option Char} (begins : beginsWord previous next = true)
    : ∃ before, previous = some before ∧ before ≠ '_' := by
  cases previous with
  | none => simp [beginsWord] at begins
  | some before =>
      refine ⟨before, rfl, ?_⟩
      rintro rfl
      have none : isLower '_' = false ∧ '_'.isDigit = false ∧ isUpper '_' = false := by decide
      simp [beginsWord, none] at begins

/-- In ASCII, snake case puts underscores between the lower-case forms of the characters, by induction on
them.
-/
theorem marks_after {previous : Option Char} {chars : List Char}
    (previousAscii : ∀ char ∈ previous, char.toNat < 128) (ascii : ∀ char ∈ chars, char.toNat < 128)
    : Marks (previous.map Char.toLower) (chars.map Char.toLower) (after previous chars) := by
  induction chars generalizing previous with
  | nil => exact .nil
  | cons char rest ih =>
      obtain ⟨here, later⟩ := List.forall_mem_cons.mp ascii
      have lowered := isLowered_toLower here
      have behind : Marks (some char.toLower) (rest.map Char.toLower) (after (some char) rest) :=
        @ih (some char) (by simpa using here) later
      have joined
          : Marks (previous.map Char.toLower) ((char :: rest).map Char.toLower)
              (char.toLower :: after (some char) rest) :=
        .joined behind
      rw [after, isUpper_of_ascii here, lowerCase_of_ascii here]
      cases capital : char.isUpper with
      | false =>
          rw [lowered.kept capital] at joined
          rw [if_neg (by simp)]
          exact joined
      | true =>
          rw [if_pos rfl]
          cases begins : beginsWord previous rest.head? with
          | false => exact joined
          | true =>
              obtain ⟨before, rfl, word⟩ := exists_of_beginsWord begins
              have beforeLowered := isLowered_toLower (previousAscii before rfl)
              refine .parted (mt beforeLowered.mark.mp word) (mt lowered.mark.mp ?_) behind
              rintro rfl
              contradiction

/-- Small letters and all else that is no capital stay as they are, by induction on the characters. -/
theorem after_of_small (previous : Option Char) {chars : List Char}
    (small : ∀ char ∈ chars, isUpper char = false)
    : after previous chars = chars := by
  induction chars generalizing previous with
  | nil => rfl
  | cons char rest ih =>
      obtain ⟨here, later⟩ := List.forall_mem_cons.mp small
      rw [after, here, if_neg (by simp), ih _ later]

-----------------------------------------------------------------------------------------
-- Names up to case and underscores
-----------------------------------------------------------------------------------------

/-- Whether all characters of a name are ASCII. -/
def IsAscii (name : String) : Prop :=
  ∀ char ∈ name.toList, char.toNat < 128

instance (name : String) : Decidable (IsAscii name) :=
  List.decidableBAll (fun char : Char => char.toNat < 128) name.toList

/-- A name in small letters, without its underscores. -/
def folded (name : String) : List Char :=
  unmarked name.toLower.toList

variable {name : String}

/-- Lowering goes character by character. -/
theorem toList_toLower (name : String)
    : name.toLower.toList = name.toList.map Char.toLower :=
  String.toList_map

/-- Folding an ASCII name lowers it and adds underscores. -/
theorem marks_ofName (ascii : IsAscii name)
    : Marks none name.toLower.toList (ofName name).toList := by
  rw [toList_toLower, ofName, String.toList_ofList]
  exact @marks_after none name.toList (by simp) ascii

/-- So no capital is left. -/
theorem isUpper_of_mem_ofName (ascii : IsAscii name)
    : ∀ char ∈ (ofName name).toList, isUpper char = false := by
  intro char member
  rcases (marks_ofName ascii).mem member with rfl | member
  · decide
  · rw [toList_toLower] at member
    obtain ⟨source, among, rfl⟩ := List.mem_map.mp member
    have lowered := isLowered_toLower (ascii source among)
    rw [isUpper_of_ascii lowered.ascii, lowered.small]

/-- Names in one file differ in case and underscores alone, since these are all that folding changes. -/
theorem folded_eq_of_ofName_eq {other : String} (ascii : IsAscii name) (otherAscii : IsAscii other)
    (same : ofName name = ofName other)
    : folded name = folded other := by
  rw [folded, folded, ← (marks_ofName ascii).unmarked_eq, ← (marks_ofName otherAscii).unmarked_eq, same]

end SnakeCase

namespace Artifact

open Unicode SnakeCase

/-- Paths that are the same end in the same name. -/
theorem fileName_eq_of_same {artifact other : Artifact} (noSlash : '/' ∉ artifact.name.toList)
    (otherNoSlash : '/' ∉ other.name.toList)
    (same : artifact.relativePath.same other.relativePath = true)
    : artifact.fileName = other.fileName := by
  have steps {artifact : Artifact} (noSlash : '/' ∉ artifact.name.toList)
      : artifact.relativePath.steps
        = (FilePath.ofSegments (directories artifact.home)).steps ++ [.name artifact.fileName] :=
    FilePath.steps_join_segment _ (isSegment_fileName noSlash)
  rw [FilePath.same, decide_eq_true_eq, steps noSlash, steps otherNoSlash] at same
  exact PathStep.name.inj (List.append_singleton_inj.mp same).2

/-- The name of a file tells the folded name, as the extension is always the same. -/
theorem ofName_eq_of_fileName_eq {artifact other : Artifact}
    (same : artifact.fileName = other.fileName)
    : ofName artifact.name = ofName other.name := by
  have chars := congrArg String.toList same
  simp only [fileName, String.toList_append] at chars
  exact String.toList_inj.mp (List.append_cancel_right chars)

/-- Snake case turns a name in ASCII into one without capitals: the name in small letters, with
underscores put in between characters that are none. That name stays as it is. So two artifacts go to
files of one name, or to one path where the names have no slashes, only if the names are the same up to
case and underscores. All parts follow from where underscores are put in; a file's name is the folded
one with its extension.
-/
theorem fileName_folds {artifact other : Artifact} (ascii : IsAscii artifact.name)
    (otherAscii : IsAscii other.name)
    : let name := artifact.name
      (∀ char ∈ (ofName name).toList, isUpper char = false)
        ∧ unmarked (ofName name).toList = folded name
        ∧ Marks none name.toLower.toList (ofName name).toList
        ∧ ofName (ofName name) = ofName name
        ∧ (artifact.fileName = other.fileName → folded name = folded other.name)
        ∧ ('/' ∉ name.toList → '/' ∉ other.name.toList
          → artifact.relativePath.same other.relativePath = true → folded name = folded other.name) := by
  intro name
  have small := isUpper_of_mem_ofName ascii
  have marks := marks_ofName ascii
  have oneFile (same : artifact.fileName = other.fileName) : folded name = folded other.name :=
    folded_eq_of_ofName_eq ascii otherAscii (ofName_eq_of_fileName_eq same)
  refine ⟨small, marks.unmarked_eq, marks, ?_, oneFile, ?_⟩
  · have again := after_of_small none small
    simp only [ofName, String.toList_ofList] at again ⊢
    rw [again]
  · intro noSlash otherNoSlash same
    exact oneFile (fileName_eq_of_same noSlash otherNoSlash same)

/-- An artifact that differs from others by its name. -/
private def netArtifact (name : String) : Artifact :=
  ⟨"crate::net", name, .factory, "", ⟨false, []⟩⟩

/-- Two names for one file: an acronym, digits and an underscore of its own. -/
theorem fileName_folds_clients
    : let acronym := netArtifact "HTTPClient2Go"
      let marked := netArtifact "HttpClient2_go"
      ofName acronym.name = "http_client2_go"
        ∧ acronym.relativePath.same marked.relativePath = true
        ∧ folded acronym.name = folded marked.name := by
  intro acronym marked
  have name : ofName acronym.name = "http_client2_go" := by decide
  have sameName : ofName marked.name = ofName acronym.name := by decide
  have samePath : acronym.relativePath = marked.relativePath := by
    rw [relativePath, relativePath, sameName]
    rfl
  have same : acronym.relativePath.same marked.relativePath = true := by
    rw [samePath, FilePath.same, decide_eq_true_eq]
  have folds := @fileName_folds acronym marked (by decide) (by decide)
  exact ⟨name, same, folds.2.2.2.2.2 (by decide) (by decide) same⟩

end Artifact

end Wiring
