import BoundQuery.Dialect
import BoundQuery.Proofs.Text.Trimming

/-!
# The names of dialects

A name is known by what is left of it without the white space around it and the case of its ASCII
letters. The main statement says which dialect every text names, that all the ways to read a name
agree, and what is reported of a name that is not known.
-/

set_option autoImplicit false

namespace BoundQuery.Dialect

variable {name variant : String} {dialect : Dialect}

/-- The names as they are looked up, without white space around them and in small letters. -/
def knownNames : List String :=
  ["cql", "mysql", "sql", "default"]

theorem ofExactName?_eq (name : String) : ofExactName? name =
    if name ∈ knownNames then some (if name = "cql" then .cql else .standard) else none := by
  simp only [ofExactName?, names, List.lookup, knownNames, List.mem_cons, List.not_mem_nil]
  grind

/-- The one place where a name is looked up. -/
theorem ofName_eq (name : String) : ofName name =
    if (Text.trim name).toLower ∈ knownNames then
      pure (if (Text.trim name).toLower = "cql" then .cql else .standard)
    else { value := .standard, log := [.unknownDialect (Text.trim name)] } := by
  rw [ofName, ofExactName?_eq]
  split_ifs <;> rfl

theorem log_ofName (name : String) : (ofName name).log =
    if (Text.trim name).toLower ∈ knownNames then []
    else [.unknownDialect (Text.trim name)] := by
  rw [ofName_eq]
  split <;> rfl

theorem value_ofName (name : String) : (ofName name).value =
    if (Text.trim name).toLower = "cql" then .cql else .standard := by
  rw [ofName_eq]
  split
  next => rfl
  next unknown =>
    rw [if_neg]
    intro isCql
    rw [isCql] at unknown
    exact unknown List.mem_cons_self

/-!
## Variants of a name
-/

/-- Where a name is unknown its variants are too, but each is reported as it is written. -/
theorem value_ofName_of_isVariant (varies : Text.IsVariant name variant) :
    (ofName variant).value = (ofName name).value := by
  rw [value_ofName, value_ofName, varies.toLower_trim_eq]

theorem toLower_trim_name (dialect : Dialect) :
    (Text.trim dialect.name).toLower = dialect.name := by
  cases dialect <;> cbv

/-- A dialect is found again by its own name, in any variant and without a report. -/
theorem ofName_of_isVariant_name (varies : Text.IsVariant dialect.name variant) :
    ofName variant = pure dialect := by
  rw [ofName, varies.toLower_trim_eq, toLower_trim_name, ofExactName?_name]

theorem value_ofName_eq_cql_iff : (ofName name).value = .cql ↔ Text.IsVariant "cql" name := by
  constructor
  · intro isCql
    rw [value_ofName] at isCql
    split at isCql
    next same => exact same ▸ Text.isVariant_toLower_trim name
    next => cases isCql
  · intro (varies : Text.IsVariant (Dialect.name .cql) name)
    rw [ofName_of_isVariant_name varies]
    rfl

/-!
## Unknown names
-/

theorem isLower_of_mem_knownNames (known : name ∈ knownNames) {char : Char}
    (member : char ∈ name.toList) : char.isLower = true := by
  have letters : (knownNames.all fun name => name.toList.all Char.isLower) = true := by decide
  exact List.all_eq_true.mp (List.all_eq_true.mp letters name known) char member

/-- Neither white space nor a letter outside ASCII is left of a known name. -/
theorem isAlpha_of_mem_knownNames (known : (Text.trim name).toLower ∈ knownNames) {char : Char}
    (member : char ∈ (Text.trim name).toList) : char.isAlpha = true := by
  rw [← Char.isLower_toLower_eq_isAlpha]
  apply isLower_of_mem_knownNames known
  rw [Text.toList_toLower]
  exact List.mem_map_of_mem member

/-- A name keeps its dialect when the case of its ASCII letters is changed and white space is put
around it. It means CQL if `cql` is left of it without white space and in small letters, and
otherwise the general dialect. What is left is reported, with the case it has, if it is no known
name, and so if it holds white space or any other character that is no letter of ASCII. All the
ways to read a name agree, and each dialect is found by its own name. -/
theorem names_up_to_case_and_blanks (name : String) :
    (∀ variant, Text.IsVariant name variant → (ofName variant).value = (ofName name).value) ∧
    (ofName name).value = (if (Text.trim name).toLower = "cql" then .cql else .standard) ∧
    ((ofName name).value = .cql ↔ Text.IsVariant "cql" name) ∧
    (ofName name).log =
      (if (Text.trim name).toLower ∈ ["cql", "mysql", "sql", "default"] then []
      else [.unknownDialect (Text.trim name)]) ∧
    ((∃ char ∈ (Text.trim name).toList, char.isAlpha = false) →
      ofName name = { value := .standard, log := [.unknownDialect (Text.trim name)] }) ∧
    (Text.IsTight (Text.trim name).toList ∧
      ∃ before after, Text.isBlank before = true ∧ Text.isBlank after = true ∧
        name = before ++ Text.trim name ++ after) ∧
    (parse name = Except.ok <$> ofName name ∧ ofText name = ofName name ∧
      Style.name <$> Style.ofName name = Dialect.name <$> ofName name) ∧
    ∀ (dialect : Dialect) (variant : String), Text.IsVariant dialect.name variant →
      ofName variant = pure dialect := by
  refine ⟨fun _ => value_ofName_of_isVariant, value_ofName name, value_ofName_eq_cql_iff,
    log_ofName name, ?foreign, Text.trim_eq_iff.mp rfl, ⟨rfl, rfl, ?styles⟩,
    fun _ _ => ofName_of_isVariant_name⟩
  case foreign =>
    rintro ⟨char, member, noLetter⟩
    rw [ofName_eq, if_neg]
    intro known
    rw [isAlpha_of_mem_knownNames known member] at noLetter
    cases noLetter
  case styles =>
    apply Logged.ext
    · exact name_style (ofName name).value
    · simp [Style.ofName]

/-- White space is that of Unicode, letters are those of ASCII: a long s is not read as an s. -/
theorem names_up_to_case_and_blanks_longS :
    (ofName "\u2003cQl\u00a0\n").value = (ofName "Cql").value ∧
      ofName "\u3000DeFaulT" = pure .standard ∧
      ofName "\t\u017fQL\u0085" = { value := .standard, log := [.unknownDialect "\u017fQL"] } ∧
      ofName "My SQL" = { value := .standard, log := [.unknownDialect "My SQL"] } := by
  have paddedCql : Text.IsVariant "Cql" "\u2003cQl\u00a0\n" :=
    ⟨"\u2003", "cQl", "\u00a0\n", by decide, by decide, by decide, by decide⟩
  have paddedStandard : Text.IsVariant "default" "\u3000DeFaulT" :=
    ⟨"\u3000", "DeFaulT", "", by decide, by decide, by decide, by decide⟩
  have trimmed : Text.trim "\t\u017fQL\u0085" = "\u017fQL" := by decide
  have inner : Text.trim "My SQL" = "My SQL" := by decide
  obtain ⟨variants, -, -, -, -, -, -, own⟩ := names_up_to_case_and_blanks "Cql"
  obtain ⟨-, -, -, -, longS, -⟩ := names_up_to_case_and_blanks "\t\u017fQL\u0085"
  obtain ⟨-, -, -, -, spaced, -⟩ := names_up_to_case_and_blanks "My SQL"
  rw [trimmed] at longS
  rw [inner] at spaced
  exact ⟨variants _ paddedCql, own .standard _ paddedStandard,
    longS ⟨'\u017f', by decide, by decide⟩, spaced ⟨' ', by decide, by decide⟩⟩

end BoundQuery.Dialect
