import Wiring.Proofs.Index.CrateInternal
import Wiring.Proofs.Text.LastSeparators

/-! Types as texts. A type is read from a text at its last separator, and its qualified name is that text
again, up to separators in front. Where all names are identifiers, the path that code is generated with
leads back to the type, so different types have different paths.
-/

namespace Wiring

open Source Segments

namespace TypeName

variable {type : TypeName} {text : String}

-----------------------------------------------------------------------------------------
-- Reading types
-----------------------------------------------------------------------------------------

/-- Which texts a type is read from. -/
theorem parse?_eq_some_iff
    : parse? text = some type
      ↔ PartsAtLast (dropLeading text) type.home type.name ∧ type.home ≠ "" ∧ type.name ≠ "" := by
  rw [← splitLast?_eq_some_iff]
  unfold parse?
  split
  · rename_i home name parts
    rw [parts, Option.some.injEq, Prod.mk.injEq]
    split_ifs with empty
    · refine ⟨(nomatch ·), ?_⟩
      rintro ⟨⟨rfl, rfl⟩, homeSome, nameSome⟩
      exact absurd empty (not_or.mpr ⟨homeSome, nameSome⟩)
    · rw [Option.some.injEq]
      refine ⟨?_, fun ⟨⟨home, name⟩, _⟩ => by rw [home, name]⟩
      rintro rfl
      exact ⟨⟨rfl, rfl⟩, not_or.mp empty⟩
  · rename_i missing
    simp [missing]

/-- No type is read from a text just if nothing stands on one side of its last separator, or it has none. -/
theorem parse?_eq_none_iff
    : parse? text = none
      ↔ ¬∃ bare home name, Bares text bare ∧ PartsAtLast bare home name ∧ home ≠ "" ∧ name ≠ "" := by
  rw [Option.eq_none_iff_forall_ne_some, ← not_exists, not_iff_not]
  constructor
  · rintro ⟨type, read⟩
    exact ⟨_, type.home, type.name, bares_iff.mpr rfl, parse?_eq_some_iff.mp read⟩
  · rintro ⟨bare, home, name, bares, parts⟩
    obtain rfl := bares_iff.mp bares
    exact ⟨⟨home, name⟩, parse?_eq_some_iff.mpr parts⟩

/-- A type is read back from its qualified name. -/
theorem parse?_qualified (read : parse? text = some type)
    : parse? type.qualified = some type := by
  rw [qualified_eq_dropLeading read]
  rw [parse?_eq_some_iff] at read ⊢
  rwa [dropLeading_dropLeading]

/-- The qualified name of a named type is a path. -/
theorem Named.qualified_isPath (named : type.Named)
    : IsPath type.qualified :=
  isPath_within named.home named.name

/-- Its segments are those of the module and the name. -/
theorem Named.split_qualified (named : type.Named)
    : split type.qualified = split type.home ++ [type.name] :=
  split_within named.home.isSingle (isSingle_of_isToken named.name)

/-- It is read back as the type, since the last separator stands in front of the name. -/
theorem Named.parse?_qualified (named : type.Named)
    : parse? type.qualified = some type := by
  have homeSome : type.home ≠ "" := by
    intro empty
    obtain ⟨char, leads, -⟩ := named.home.starts
    simp [empty] at leads
  refine parse?_eq_some_iff.mpr ⟨?_, homeSome, Identifier.ne_empty_of_isToken named.name⟩
  rw [named.qualified_isPath.dropLeading_eq, ← splitLast?_eq_some_iff]
  exact splitLast?_within type.home (isSingle_of_isToken named.name)

/-- The types of the crate are those whose modules begin with the crate. -/
theorem isLocal_iff
    : type.isLocal = true ↔ (split type.home).head? = some "crate" := by
  constructor
  · intro isLocal
    have inside : Index.IsCrateModule type.home := by
      simpa [isLocal, TypeName.isLocal, Index.IsCrateModule, Index.isInCrate] using isLocal
    obtain ⟨rest, same⟩ := inside.split
    rw [same, List.head?_cons]
  · intro leads
    obtain ⟨rest, same⟩ := List.head?_eq_some_iff.mp leads
    have whole := join_split type.home
    rw [same] at whole
    cases rest with
    | nil => simp [isLocal, ← whole, join]
    | cons second rest =>
        have inside : "crate::".isPrefixOf type.home = true := by
          refine String.startsWith_string_iff.mpr ⟨(join (second :: rest)).toList, ?_⟩
          rw [← whole]
          simp [join, Text.joinWith_cons_cons]
        simp [isLocal, inside]

end TypeName

namespace Emission

variable {type other : TypeName}

-----------------------------------------------------------------------------------------
-- Printed paths
-----------------------------------------------------------------------------------------

/-- A text less its blanks. -/
def withoutSpaces (text : String) : String :=
  String.ofList (text.toList.filter (· ≠ ' '))

/-- Blanks are dropped from either part alone. -/
theorem withoutSpaces_append (text more : String)
    : withoutSpaces (text ++ more) = withoutSpaces text ++ withoutSpaces more := by
  apply String.toList_inj.mp
  simp [withoutSpaces]

/-- No identifier has a blank. -/
theorem withoutSpaces_of_isToken {word : String} (token : Identifier.isToken word = true)
    : withoutSpaces word = word := by
  have spaceless : word.toList.filter (· ≠ ' ') = word.toList := by
    refine List.filter_eq_self.mpr fun char member => decide_eq_true ?_
    rintro rfl
    exact absurd (Identifier.isContinue_of_mem_token token member) (by decide)
  rw [withoutSpaces, spaceless, String.ofList_toList]

/-- The printed words of a path are its text without the spaces, by induction on the words. -/
theorem withoutSpaces_joinWith {words : List String}
    (tokens : ∀ word ∈ words, Identifier.isToken word = true)
    : withoutSpaces (Text.joinWith " :: " words) = join words := by
  induction words with
  | nil => rfl
  | cons first rest ih =>
      obtain ⟨token, others⟩ := List.forall_mem_cons.mp tokens
      cases rest with
      | nil => exact withoutSpaces_of_isToken token
      | cons second rest =>
          have mark : withoutSpaces " :: " = "::" := by decide
          rw [Text.joinWith_cons_cons, withoutSpaces_append, withoutSpaces_append, ih others, mark,
            withoutSpaces_of_isToken token]
          rfl

/-- The words of the path of a type are printed one behind the other, and those of a type of another crate
behind a separator.
-/
theorem typePath?_of_named (named : type.Named)
    : typePath? type
      = some ((if type.isLocal then "" else ":: ") ++ Text.joinWith " :: " (split type.qualified)) := by
  obtain ⟨printed, found⟩ := named.isSpelled.exists_typePath?
  have path := found
  rw [typePath?, path?, named.qualified_isPath.dropLeading_eq] at path
  obtain ⟨words, words?, answer⟩ := Option.bind_eq_some_iff.mp path
  obtain ⟨rfl, -⟩ := words_eq_of_mapM_word? words?
  have leads : (split type.qualified).head? = (split type.home).head? := by
    rw [named.split_qualified, List.head?_append_of_ne_nil _ (split_ne_nil _)]
  have isLocal : (split type.qualified).head? = some "crate" ↔ type.isLocal = true := by
    rw [leads, TypeName.isLocal_iff]
  rw [found, ← Option.some.inj answer]
  simp only [isLocal]
  split <;> simp

/-- The path of a type leads back to the type. -/
theorem parse?_withoutSpaces_typePath? (named : type.Named) {printed : String}
    (found : typePath? type = some printed)
    : TypeName.parse? (withoutSpaces printed) = some type := by
  rw [typePath?_of_named named] at found
  have words : withoutSpaces (Text.joinWith " :: " (split type.qualified)) = type.qualified := by
    rw [withoutSpaces_joinWith named.qualified_isPath, join_split]
  rw [← Option.some.inj found, withoutSpaces_append, words]
  have read := named.parse?_qualified
  cases type.isLocal with
  | true => simpa [withoutSpaces] using read
  | false =>
      have mark : withoutSpaces ":: " = "::" := by decide
      rw [if_neg (by simp), mark, TypeName.parse?_eq_some_iff, dropLeading_separator]
      exact TypeName.parse?_eq_some_iff.mp read

/-- The path of a type begins with the crate just if the type is one of the crate. -/
theorem startsWith_typePath? (named : type.Named) {printed : String}
    (found : typePath? type = some printed)
    : "crate".isPrefixOf printed = true ↔ type.isLocal = true := by
  rw [typePath?_of_named named] at found
  rw [← Option.some.inj found]
  cases isLocal : type.isLocal with
  | false =>
      refine iff_of_false (fun begins => ?_) (by simp)
      obtain ⟨rest, same⟩ := String.startsWith_string_iff.mp begins
      simp at same
  | true =>
      refine iff_of_true (String.startsWith_string_iff.mpr ?_) rfl
      obtain ⟨rest, home⟩ := List.head?_eq_some_iff.mp (TypeName.isLocal_iff.mp isLocal)
      obtain ⟨second, more, behind⟩ := List.exists_cons_of_ne_nil
        (List.append_ne_nil_of_right_ne_nil rest (List.cons_ne_nil type.name []))
      rw [named.split_qualified, home, List.cons_append, behind, Text.joinWith_cons_cons]
      simp

/-- A type that is read from a text has the text for its qualified name, but for separators in front, and is
read back from it; and none is read just if the last separator of what is behind those has nothing on one
side, or there is none. A type of identifiers has a path. Without its spaces that is read back as the type,
and it begins with the crate for the types of the crate alone. So different types have different paths.
-/
theorem type_texts_invertible (text : String) (named : type.Named) (otherNamed : other.Named)
    : (∀ read, TypeName.parse? text = some read →
          Bares text read.qualified ∧ TypeName.parse? read.qualified = some read)
        ∧ (TypeName.parse? text = none
          ↔ ¬∃ bare home name,
              Bares text bare ∧ PartsAtLast bare home name ∧ home ≠ "" ∧ name ≠ "")
        ∧ (∃ printed,
            typePath? type = some printed
              ∧ TypeName.parse? (withoutSpaces printed) = some type
              ∧ ("crate".isPrefixOf printed = true ↔ type.isLocal = true))
        ∧ (typePath? type = typePath? other → type = other) := by
  obtain ⟨printed, found⟩ := named.isSpelled.exists_typePath?
  have readBack := parse?_withoutSpaces_typePath? named found
  refine ⟨fun read parsed => ?_, TypeName.parse?_eq_none_iff, ?_, fun same => ?_⟩
  · exact ⟨bares_iff.mpr (TypeName.qualified_eq_dropLeading parsed), TypeName.parse?_qualified parsed⟩
  · exact ⟨printed, found, readBack, startsWith_typePath? named found⟩
  · have otherReadBack := parse?_withoutSpaces_typePath? otherNamed (same.symm.trans found)
    exact Option.some.inj (readBack.symm.trans otherReadBack)

/-- A client of the crate. -/
private def localClient : TypeName :=
  ⟨"crate::net", "Client"⟩

/-- A client of another crate, behind a raw module. -/
private def foreignClient : TypeName :=
  ⟨"net::r#type", "Client"⟩

/-- A text with separators in front and three colons at its last separator, and a client of the crate beside
one of another crate.
-/
theorem type_texts_invertible_clients
    : TypeName.parse? "::::crate::net:::Client" = some ⟨"crate::net:", "Client"⟩
        ∧ Bares "::::crate::net:::Client" "crate::net:::Client"
        ∧ typePath? localClient = some "crate :: net :: Client"
        ∧ TypeName.parse? (withoutSpaces "crate :: net :: Client") = some localClient
        ∧ typePath? localClient ≠ typePath? foreignClient := by
  have named : localClient.Named := ⟨by decide, by decide⟩
  have foreignNamed : foreignClient.Named := ⟨by decide, by decide⟩
  have read : TypeName.parse? "::::crate::net:::Client" = some ⟨"crate::net:", "Client"⟩ := by decide
  have path : typePath? localClient = some "crate :: net :: Client" := by decide
  obtain ⟨bares, -, ⟨printed, found, readBack, -⟩, inj⟩ :=
    type_texts_invertible "::::crate::net:::Client" named foreignNamed
  obtain rfl := Option.some.inj (path.symm.trans found)
  exact ⟨read, (bares _ read).1, path, readBack, fun same => absurd (inj same) (by decide)⟩

end Emission

end Wiring
