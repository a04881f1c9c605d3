import Mathlib.Data.List.Induction
import Mathlib.Data.List.Nodup
import Mathlib.Data.List.TakeWhile
import Mathlib.Data.Nat.Digits.Defs
import Mathlib.Tactic.MkIffOfInductiveProp
import Wiring.Proofs.Answers
import Wiring.Settings

/-! Settings that are read from variables. All values of a variable must have a meaning, and the last
one counts. Different variables may come in any order, and those that are no settings do not matter.
-/

namespace Wiring.Settings

open Unicode

-----------------------------------------------------------------------------------------
-- What values mean
-----------------------------------------------------------------------------------------

/-- The text writes a number that fits 64 bits: decimal digits behind at most one plus sign. -/
def WritesCount (text : String) (count : Nat) : Prop :=
  ∃ digits : List Char,
    digits ≠ []
    ∧ (∀ digit ∈ digits, digit.isDigit = true)
    ∧ (text.toList = digits ∨ text.toList = '+' :: digits)
    ∧ count = Nat.ofDigits 10 (digits.reverse.map fun digit => digit.toNat - '0'.toNat)
    ∧ count < 2 ^ 64

/-- Digits are read as a number in base ten, by induction from the last one on. -/
theorem natOfDigits_eq (digits : List Char)
    : Json.natOfDigits digits
      = Nat.ofDigits 10 (digits.reverse.map fun digit => digit.toNat - '0'.toNat) := by
  induction digits using List.reverseRecOn with
  | nil => rfl
  | append_singleton front last ih =>
      rw [Json.natOfDigits] at ih ⊢
      rw [List.foldl_append, ih, List.reverse_append, List.reverse_singleton, List.singleton_append,
        List.map_cons, Nat.ofDigits_cons]
      exact Nat.add_comm _ _

/-- The digits are what stands behind the sign, or all of the text where there is none. -/
theorem count?_of_digits {text : String} {digits : List Char}
    (chars : text.toList = '+' :: digits ∨ text.toList = digits ∧ digits.head? ≠ some '+')
    : count? text
      = if digits.isEmpty || !digits.all Char.isDigit then none
        else if Json.natOfDigits digits < Json.naturalLimit then some (Json.natOfDigits digits)
        else none := by
  unfold count?
  rcases chars with signed | ⟨plain, noSign⟩
  · rw [signed]
    rfl
  · rw [plain]
    split
    · simp at noSign
    · rfl

/-- A text is read as a count if it writes it: digits, with or without a sign, that fit into the range,
by whether it starts with a sign.
-/
theorem count?_eq_some_iff {text : String} {count : Nat}
    : count? text = some count ↔ WritesCount text count := by
  have reads {digits : List Char}
      (chars : text.toList = '+' :: digits ∨ text.toList = digits ∧ digits.head? ≠ some '+')
      : count? text = some count
        ↔ digits ≠ []
          ∧ (∀ digit ∈ digits, digit.isDigit = true)
          ∧ count = Nat.ofDigits 10 (digits.reverse.map fun digit => digit.toNat - '0'.toNat)
          ∧ count < 2 ^ 64 := by
    rw [count?_of_digits chars, natOfDigits_eq, Json.naturalLimit]
    grind
  constructor
  · intro found
    cases first : text.toList with
    | nil =>
        have empty := (reads (.inr ⟨first, by simp⟩)).mp found
        exact absurd rfl empty.1
    | cons char rest =>
        by_cases sign : char = '+'
        · subst sign
          obtain ⟨some, all, value, fits⟩ := (reads (.inl first)).mp found
          exact ⟨rest, some, all, .inr first, value, fits⟩
        · obtain ⟨some, all, value, fits⟩ := (reads (.inr ⟨first, by simpa using sign⟩)).mp found
          exact ⟨char :: rest, some, all, .inl first, value, fits⟩
  · rintro ⟨digits, some, all, chars | chars, value, fits⟩
    · refine (reads (.inr ⟨chars, fun sign => ?_⟩)).mpr ⟨some, all, value, fits⟩
      exact absurd (all '+' (List.mem_of_head? sign)) (by decide)
    · exact (reads (.inl chars)).mpr ⟨some, all, value, fits⟩

/-- Blanks around it and the case of its ASCII letters aside, the text is one of the words. -/
def IsWord (words : List String) (text : String) : Prop :=
  ∃ front word back : List Char,
    text.toList = front ++ word ++ back
    ∧ (∀ char ∈ front ++ back, isBlank char = true)
    ∧ String.ofList (word.map Char.toLower) ∈ words

/-- The words for a flag. -/
def flagWords (flag : Bool) : List String :=
  if flag then ["1", "true", "yes", "on"] else ["0", "false", "no", "off", ""]

/-- Whether the text is one of these words, in any case and with blanks around it. -/
def WritesFlag (text : String) (flag : Bool) : Prop :=
  IsWord (flagWords flag) text

/-- No capital is a blank, so blanks have no other small form. -/
theorem toLower_of_isBlank {char : Char} (blank : isBlank char = true)
    : char.toLower = char := by
  have noCapital : ¬ (char.val ≥ 'A'.val ∧ char.val ≤ 'Z'.val) := by
    intro capital
    have letter : 65 ≤ char.toNat ∧ char.toNat ≤ 90 := by
      simp only [ge_iff_le, UInt32.le_iff_toNat_le] at capital
      exact capital
    have visible : ∀ code < 91, 65 ≤ code → inRanges blankRanges code = false := by decide
    rw [isBlank, visible char.toNat (by omega) letter.1] at blank
    contradiction
  exact dif_neg noCapital

/-- Dropping blanks stops at the first character that is none. -/
theorem dropWhile_isBlank {front word : List Char} (back : List Char)
    (blank : ∀ char ∈ front, isBlank char = true) (visible : ∀ char ∈ word, isBlank char = false)
    (written : word ≠ [])
    : (front ++ (word ++ back)).dropWhile isBlank = word ++ back := by
  rw [List.dropWhile_append_of_pos blank]
  cases word with
  | nil => exact absurd rfl written
  | cons first rest => simp [visible first]

/-- A text without blanks inside is what remains of it when blanks stand around it. -/
theorem trim_of_append {text : String} {front word back : List Char}
    (chars : text.toList = front ++ (word ++ back))
    (blank : ∀ char ∈ front, isBlank char = true) (blankBehind : ∀ char ∈ back, isBlank char = true)
    (visible : ∀ char ∈ word, isBlank char = false)
    : trim text = String.ofList word := by
  rw [trim, chars]
  by_cases written : word = []
  · have all : (front ++ (word ++ back)).dropWhile isBlank = [] := by
      rw [List.dropWhile_append_of_pos blank, written, List.nil_append, List.dropWhile_eq_nil_iff]
      exact blankBehind
    rw [all, written]
    rfl
  · have behind : (back.reverse ++ (word.reverse ++ [])).dropWhile isBlank = word.reverse ++ [] :=
      dropWhile_isBlank [] (by simpa using blankBehind) (by simpa using visible) (by simpa)
    rw [List.append_nil] at behind
    rw [dropWhile_isBlank back blank visible written, List.reverse_append, behind,
      List.reverse_reverse]

/-- What is taken off the ends of a text are blanks. -/
theorem exists_append_trim (text : String)
    : ∃ front back : List Char,
        text.toList = front ++ ((trim text).toList ++ back)
        ∧ (∀ char ∈ front, isBlank char = true)
        ∧ ∀ char ∈ back, isBlank char = true := by
  have taken (chars : List Char) : ∀ char ∈ chars.takeWhile isBlank, isBlank char = true :=
    List.all_eq_true.mp List.all_takeWhile
  refine ⟨text.toList.takeWhile isBlank,
    ((text.toList.dropWhile isBlank).reverse.takeWhile isBlank).reverse, ?_, taken _, ?_⟩
  · rw [trim, String.toList_ofList, ← List.reverse_append, List.takeWhile_append_dropWhile,
      List.reverse_reverse, List.takeWhile_append_dropWhile]
  · intro char member
    exact taken _ char (List.mem_reverse.mp member)

/-- A text is one of some words without blanks just where its form as a flag is among them. The words
have no blanks and no capitals, so what is trimmed and lowered is the word.
-/
theorem isWord_iff {words : List String}
    (solid : ∀ word ∈ words, ∀ char ∈ word.toList, isBlank char = false) {text : String}
    : IsWord words text ↔ flagWord text ∈ words := by
  constructor
  · rintro ⟨front, word, back, chars, blank, among⟩
    have visible : ∀ char ∈ word, isBlank char = false := by
      intro char member
      refine Bool.eq_false_iff.mpr fun blank => ?_
      have lowered : char ∈ (String.ofList (word.map Char.toLower)).toList := by
        rw [String.toList_ofList]
        exact List.mem_map.mpr ⟨char, member, toLower_of_isBlank blank⟩
      exact absurd blank (Bool.eq_false_iff.mp (solid _ among char lowered))
    obtain ⟨before, behind⟩ := List.forall_mem_append.mp blank
    rw [List.append_assoc] at chars
    have trimmed := trim_of_append chars before behind visible
    have lowered : flagWord text = String.ofList (word.map Char.toLower) := by
      apply String.toList_inj.mp
      rw [flagWord, trimmed, String.toList_map, String.toList_ofList, String.toList_ofList]
    rwa [lowered]
  · intro among
    obtain ⟨front, back, chars, before, behind⟩ := exists_append_trim text
    refine ⟨front, (trim text).toList, back, by rw [chars, List.append_assoc],
      List.forall_mem_append.mpr ⟨before, behind⟩, ?_⟩
    have lowered : String.ofList ((trim text).toList.map Char.toLower) = flagWord text := by
      apply String.toList_inj.mp
      rw [flagWord, String.toList_map, String.toList_ofList]
    rwa [lowered]

/-- A text is read as a flag if it writes it, since no word has blanks of its own. -/
theorem flag?_eq_some_iff {text : String} {flag : Bool}
    : flag? text = some flag ↔ WritesFlag text flag := by
  have solid : ∀ word ∈ flagWords flag, ∀ char ∈ word.toList, isBlank char = false := by
    cases flag <;> simp [flagWords] <;> decide
  rw [WritesFlag, isWord_iff solid, flag?]
  generalize flagWord text = word
  have apart : word ∈ flagWords true → word ∉ flagWords false := by
    revert word
    decide
  cases flag <;> simp [flagWords] at apart ⊢ <;> grind

-----------------------------------------------------------------------------------------
-- Values one after the other
-----------------------------------------------------------------------------------------

section Settles

variable {α : Type} {means : String → α → Prop} {standard value : α}

/-- All of the texts have a meaning, and the value is what the last one means, or the standard where
there is none.
-/
structure Settles (means : String → α → Prop) (standard : α) (texts : List String) (value : α)
    : Prop where
  readable : ∀ text ∈ texts, ∃ meaning, means text meaning
  last : ∀ text, texts.getLast? = some text → means text value
  unset : texts = [] → value = standard

/-- Without values the standard counts. -/
@[simp]
theorem settles_nil : Settles means standard [] value ↔ value = standard :=
  ⟨fun settles => settles.unset rfl, fun same => ⟨by simp, by simp, fun _ => same⟩⟩

/-- A single value counts. -/
@[simp]
theorem settles_singleton {text : String}
    : Settles means standard [text] value ↔ means text value :=
  ⟨fun settles => settles.last text rfl,
    fun meaning => ⟨by simpa using ⟨value, meaning⟩, by simpa using meaning, by simp⟩⟩

/-- Where further texts follow, what the first ones settle is the standard for the others. The last
text decides, so it is asked whether the texts behind are any.
-/
theorem settles_append {front back : List String}
    : Settles means standard (front ++ back) value
      ↔ ∃ middle, Settles means standard front middle ∧ Settles means middle back value := by
  constructor
  · rintro ⟨readable, last, unset⟩
    obtain ⟨first, others⟩ := List.forall_mem_append.mp readable
    rcases List.eq_nil_or_concat back with rfl | ⟨rest, text, rfl⟩
    · rw [List.append_nil] at last unset
      exact ⟨value, ⟨first, last, unset⟩, settles_nil.mpr rfl⟩
    · have meaning : means text value := last text (by simp)
      have settled : ∃ middle, Settles means standard front middle := by
        rcases List.eq_nil_or_concat front with rfl | ⟨earlier, text, rfl⟩
        · exact ⟨standard, settles_nil.mpr rfl⟩
        · obtain ⟨middle, meaning⟩ := first text (by simp)
          exact ⟨middle, first, by simpa using meaning, by simp⟩
      obtain ⟨middle, settled⟩ := settled
      exact ⟨middle, settled, others, by simpa using meaning, by simp⟩
  · rintro ⟨middle, settledFirst, settled⟩
    refine ⟨List.forall_mem_append.mpr ⟨settledFirst.readable, settled.readable⟩, ?_, ?_⟩
    · intro text isLast
      rcases List.eq_nil_or_concat back with rfl | ⟨rest, last, rfl⟩
      · obtain rfl := settles_nil.mp settled
        exact settledFirst.last text (by simpa using isLast)
      · exact settled.last text (by simpa using isLast)
    · intro none
      obtain ⟨rfl, rfl⟩ := List.append_eq_nil_iff.mp none
      rw [settled.unset rfl, settledFirst.unset rfl]

end Settles

/-- The values that are given for a variable, in order. -/
def given (key : String) (values : List (String × String)) : List String :=
  (values.filter fun value => value.1 = key).map (·.2)

/-- The settings after values for variables: each field has what the last value of its variable means,
or what it had before.
-/
@[mk_iff]
structure Overlaid (settings : Settings) (values : List (String × String)) (result : Settings)
    : Prop where
  marker : Settles Eq settings.marker (given "TINYDI_MARKER" values) result.marker
  componentNamespace
    : Settles Eq settings.componentNamespace (given "TINYDI_COMPONENT_NAMESPACE" values)
        result.componentNamespace
  componentName
    : Settles Eq settings.componentName (given "TINYDI_COMPONENT_NAME" values) result.componentName
  runtimePath
    : Settles Eq settings.runtimePath (given "TINYDI_RUNTIME_PATH" values) result.runtimePath
  maxRounds
    : Settles WritesCount settings.maxRounds (given "TINYDI_MAX_ROUNDS" values) result.maxRounds
  denyCycles
    : Settles WritesFlag settings.denyCycles (given "TINYDI_DENY_CYCLES" values) result.denyCycles

variable {settings result : Settings} {values others : List (String × String)}

/-- Without variables the settings stay, field by field. -/
theorem overlaid_nil : Overlaid settings [] result ↔ result = settings := by
  obtain ⟨_, _, _, _, _, _⟩ := settings
  obtain ⟨_, _, _, _, _, _⟩ := result
  simp [overlaid_iff, given]

/-- A variable is given for its own key. -/
theorem given_singleton (key name value : String)
    : given key [(name, value)] = if name = key then [value] else [] := by
  by_cases same : name = key <;> simp [given, same]

/-- Variables in front are given first. -/
theorem given_cons (key : String) (first : String × String) (values : List (String × String))
    : given key (first :: values) = given key [first] ++ given key values := by
  rw [← List.singleton_append, given, List.filter_append, List.map_append]
  rfl

/-- Values may be taken one by one. -/
theorem overlaid_cons {first : String × String}
    : Overlaid settings (first :: values) result
      ↔ ∃ middle, Overlaid settings [first] middle ∧ Overlaid middle values result := by
  constructor
  · rintro ⟨marker, componentNamespace, componentName, runtimePath, maxRounds, denyCycles⟩
    rw [given_cons, settles_append]
      at marker componentNamespace componentName runtimePath maxRounds denyCycles
    obtain ⟨marker, markerFirst, markerLater⟩ := marker
    obtain ⟨componentNamespace, namespaceFirst, namespaceLater⟩ := componentNamespace
    obtain ⟨componentName, nameFirst, nameLater⟩ := componentName
    obtain ⟨runtimePath, pathFirst, pathLater⟩ := runtimePath
    obtain ⟨maxRounds, roundsFirst, roundsLater⟩ := maxRounds
    obtain ⟨denyCycles, cyclesFirst, cyclesLater⟩ := denyCycles
    exact ⟨⟨marker, componentNamespace, componentName, runtimePath, maxRounds, denyCycles⟩,
      ⟨markerFirst, namespaceFirst, nameFirst, pathFirst, roundsFirst, cyclesFirst⟩,
      ⟨markerLater, namespaceLater, nameLater, pathLater, roundsLater, cyclesLater⟩⟩
  · rintro ⟨middle, first, later⟩
    constructor <;> rw [given_cons, settles_append]
    · exact ⟨_, first.marker, later.marker⟩
    · exact ⟨_, first.componentNamespace, later.componentNamespace⟩
    · exact ⟨_, first.componentName, later.componentName⟩
    · exact ⟨_, first.runtimePath, later.runtimePath⟩
    · exact ⟨_, first.maxRounds, later.maxRounds⟩
    · exact ⟨_, first.denyCycles, later.denyCycles⟩

/-- One value changes the field of its variable, and nothing where there is no such field. -/
theorem assign_eq_ok_iff {key value : String}
    : settings.assign key value = .ok result ↔ Overlaid settings [(key, value)] result := by
  obtain ⟨_, _, _, _, _, _⟩ := settings
  obtain ⟨_, _, _, _, _, _⟩ := result
  rw [overlaid_iff]
  simp only [given_singleton]
  unfold assign
  split
  · simp [eq_comm]
  · simp [eq_comm]
  · simp [eq_comm]
  · simp [eq_comm]
  · cases found : count? value <;> simp [← count?_eq_some_iff, found, eq_comm]
  · cases found : flag? value <;> simp [← flag?_eq_some_iff, found, eq_comm]
  · rename_i marker componentNamespace componentName runtimePath maxRounds denyCycles
    simp only [if_neg marker, if_neg componentNamespace, if_neg componentName, if_neg runtimePath,
      if_neg maxRounds, if_neg denyCycles, settles_nil]
    simp [eq_comm]

/-- Assigning variables one by one overlays their last values, by induction on them: the first one is
overlaid, and the rest lies over it.
-/
theorem assignAll_eq_ok_iff
    : settings.assignAll values = .ok result ↔ Overlaid settings values result := by
  induction values generalizing settings with
  | nil => rw [assignAll, overlaid_nil, Except.ok.injEq, eq_comm]
  | cons first rest ih =>
      obtain ⟨key, value⟩ := first
      rw [assignAll, overlaid_cons]
      simp only [← assign_eq_ok_iff]
      cases settings.assign key value with
      | error fault => simp
      | ok middle => simp [ih]

/-- Validation returns the settings that it is given, or fails. -/
theorem validate_eq_ok_iff
    : settings.validate = .ok result ↔ result = settings ∧ settings.validate = .ok settings := by
  unfold validate
  cases settings.fault? <;> simp [eq_comm]

/-- Reading variables succeeds if all values have a meaning and what they settle is valid. -/
theorem overlay_eq_ok_iff
    : settings.overlay values = .ok result
      ↔ Overlaid settings values result ∧ result.validate = .ok result := by
  rw [← assignAll_eq_ok_iff, overlay]
  cases settings.assignAll values with
  | error fault => simp
  | ok overlaid =>
      simp only [Except.ok.injEq]
      rw [validate_eq_ok_iff]
      grind

-----------------------------------------------------------------------------------------
-- Variables in any order
-----------------------------------------------------------------------------------------

/-- The order of variables with one value each does not show in what is given for one of them. -/
theorem given_eq_of_perm (perm : values.Perm others) (distinct : (values.map Prod.fst).Nodup)
    (key : String)
    : given key values = given key others := by
  have same := perm.filter fun value => decide (value.1 = key)
  have once : (values.filter fun value => decide (value.1 = key)).length ≤ 1 := by
    rw [← List.countP_eq_length_filter]
    have number := List.nodup_iff_count_le_one.mp distinct key
    rw [List.count, List.countP_map] at number
    exact (List.countP_congr fun value _ => by simp).trans_le number
  rw [given, given]
  congr 1
  generalize values.filter _ = front at same once
  rcases front with _ | ⟨value, _ | ⟨second, rest⟩⟩
  · exact same.nil_eq
  · exact List.singleton_perm.mp same
  · simp at once

/-- Only what is given for the known names matters. -/
theorem overlaid_congr (same : ∀ key ∈ variableNames, given key values = given key others)
    : Overlaid settings values result ↔ Overlaid settings others result := by
  simp only [variableNames, List.forall_mem_cons] at same
  obtain ⟨marker, componentNamespace, componentName, runtimePath, maxRounds, denyCycles, _⟩ := same
  rw [overlaid_iff, overlaid_iff, marker, componentNamespace, componentName, runtimePath, maxRounds,
    denyCycles]

/-- A variable of another name changes nothing. -/
theorem assign_of_unknown {key : String} (unknown : key ∉ variableNames) (value : String)
    : settings.assign key value = .ok settings := by
  unfold assign
  split
  all_goals simp [variableNames] at unknown
  rfl

/-- Variables that are no settings are passed over. -/
theorem overlay_filter (settings : Settings) (values : List (String × String))
    : settings.overlay (values.filter fun value => variableNames.contains value.1)
      = settings.overlay values := by
  have assigned
      : settings.assignAll (values.filter fun value => variableNames.contains value.1)
        = settings.assignAll values := by
    induction values generalizing settings with
    | nil => rfl
    | cons first rest ih =>
        obtain ⟨key, value⟩ := first
        by_cases known : key ∈ variableNames
        · rw [List.filter_cons_of_pos (by simpa using known), assignAll, assignAll]
          simp only [ih]
        · rw [List.filter_cons_of_neg (by simpa using known), ih, assignAll,
            assign_of_unknown known]
  rw [overlay, assigned, overlay]

/-- Reading variables succeeds just where all values have a meaning and the last ones make valid
settings, which are the answer then. So variables with one value each may come in any order, and those
that are no settings may be left out.
-/
theorem overlay_last_values (settings : Settings) (values : List (String × String))
    : (∀ result,
        settings.overlay values = .ok result
        ↔ Overlaid settings values result ∧ result.validate = .ok result)
      ∧ (∀ others,
          values.Perm others
          → (values.map Prod.fst).Nodup
          → (settings.overlay values).toOption = (settings.overlay others).toOption)
      ∧ settings.overlay (values.filter fun value => variableNames.contains value.1)
        = settings.overlay values := by
  refine ⟨fun result => overlay_eq_ok_iff, ?_, overlay_filter settings values⟩
  intro others perm distinct
  have same (result : Settings)
      : settings.overlay values = .ok result ↔ settings.overlay others = .ok result := by
    rw [overlay_eq_ok_iff, overlay_eq_ok_iff,
      overlaid_congr fun key _ => given_eq_of_perm perm distinct key]
  refine Option.ext fun result => ?_
  rw [toOption_eq_some_iff, toOption_eq_some_iff, same]

/-- Two settings among other variables, with a sign and blanks in their values. -/
def roundsAndCycles : List (String × String) :=
  [("TINYDI_MAX_ROUNDS", "+3"), ("PATH", "/usr/bin"), ("TINYDI_DENY_CYCLES", " Yes\t")]

/-- Three rounds and denied cycles, in the order given. -/
theorem overlay_roundsAndCycles
    : (overlay {} roundsAndCycles).toOption = some { maxRounds := 3, denyCycles := true } := by
  decide +kernel

/-- Witness: the same settings in the other order, as no variable is given twice. -/
theorem overlay_last_values_reversed
    : roundsAndCycles.Perm roundsAndCycles.reverse
      ∧ (roundsAndCycles.map Prod.fst).Nodup
      ∧ (overlay {} roundsAndCycles.reverse).toOption
        = some { maxRounds := 3, denyCycles := true } := by
  have perm := (List.reverse_perm roundsAndCycles).symm
  have distinct : (roundsAndCycles.map Prod.fst).Nodup := by decide
  refine ⟨perm, distinct, ?_⟩
  rw [← (overlay_last_values {} roundsAndCycles).2.1 _ perm distinct]
  exact overlay_roundsAndCycles

end Wiring.Settings
