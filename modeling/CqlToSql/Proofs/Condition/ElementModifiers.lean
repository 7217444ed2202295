/-
  CqlToSql.Proofs.Condition.ElementModifiers
  ──────────────────────────────────────────
  **Relation modifiers that address the elements of an array.**  A modifier with
  an `@` names a member of the elements:

      index == /@name=value /@other=text term

  It is honoured when an index of the field declares its name, in any letter
  case, and the search requires of an element to hold the member.

  Main statement: the first such modifier has to be declared, or the clause
  fails, and it is honoured.  The ones behind it are neither looked up nor
  tested, so they are honoured just when they repeat the first one: its name, in
  any letter case, and its value (`elementModifiers_honoured_iff`).
-/
import CqlToSql.Proofs.Condition.Predicates

namespace CqlToSql

open CqlToSql.Text CqlToSql.Sql CqlToSql.Condition

variable {ix : FieldIndexes} {name : String}

/-! ## §1. Declared modifiers. -/

/-- An index of the field declares a modifier of that name, in any letter case. -/
def FieldIndexes.Declares (ix : FieldIndexes) (name : String) : Prop :=
  ∃ i ∈ ix.all, ∃ declared ∈ i.arrayModifiers, sameAsciiFold declared name = true

instance (ix : FieldIndexes) (name : String) : Decidable (ix.Declares name) :=
  inferInstanceAs
    (Decidable (∃ i ∈ ix.all, ∃ declared ∈ i.arrayModifiers, sameAsciiFold declared name = true))

theorem FieldIndexes.elementModifier_eq_none_iff :
    ix.elementModifier name = none ↔ ¬ ix.Declares name := by
  unfold FieldIndexes.elementModifier FieldIndexes.Declares
  simp only [List.findSome?_eq_none_iff, Option.map_eq_none_iff, List.find?_eq_none]
  constructor
  · rintro h ⟨i, hi, declared, hdeclared, hname⟩
    exact h i hi declared hdeclared hname
  · intro h i hi declared hdeclared hname
    exact h ⟨i, hi, declared, hdeclared, hname⟩

/-- The declared name that is found is that of the modifier, up to letter case. -/
theorem FieldIndexes.sameAsciiFold_of_elementModifier {declared part : String}
    (h : ix.elementModifier name = some (declared, part)) : sameAsciiFold declared name = true := by
  obtain ⟨i, -, hfound⟩ := List.exists_of_findSome?_eq_some h
  obtain ⟨d, hd, heq⟩ := Option.map_eq_some_iff.1 hfound
  cases heq
  exact List.find?_some (p := fun d => sameAsciiFold d name) hd

theorem FieldIndexes.Declares.of_elementModifier {declared part : String}
    (h : ix.elementModifier name = some (declared, part)) : ix.Declares name := by
  obtain ⟨i, hi, hmem, -⟩ := elementModifier_declared h
  exact ⟨i, hi, declared, hmem, sameAsciiFold_of_elementModifier h⟩

/-- The parts of elements that the field compares have no quote in their names. -/
def FieldIndexes.UnquotedParts (ix : FieldIndexes) : Prop :=
  ∀ i ∈ ix.all, ∀ declared ∈ i.arrayModifiers, '\'' ∉ (i.arraySubfield.getD declared).toList

instance (ix : FieldIndexes) : Decidable ix.UnquotedParts :=
  inferInstanceAs (Decidable
    (∀ i ∈ ix.all, ∀ declared ∈ i.arrayModifiers, '\'' ∉ (i.arraySubfield.getD declared).toList))

/-! ## §2. Honoured modifiers. -/

/-- The modifier `@name=value` is declared, and the search requires the member
under the declared name. -/
def FieldIndexes.Honours (ix : FieldIndexes) (q : ElementQuery) (name value : String) : Prop :=
  ∃ i ∈ ix.all, ∃ declared ∈ i.arrayModifiers,
    sameAsciiFold declared name = true ∧ q.Requires declared value

/-- A search for the member of one modifier honours those that repeat it. -/
theorem FieldIndexes.honours_memberQuery_iff {array table condition declared part value other
    text : String} (hdeclared : ix.elementModifier name = some (declared, part))
    (hcondition : IsPlainCondition (tokens condition)) :
    ix.Honours (memberQuery array table declared value condition) other text ↔
      sameAsciiFold name other = true ∧ text = value := by
  have hname : sameAsciiFold declared name = true := sameAsciiFold_of_elementModifier hdeclared
  unfold FieldIndexes.Honours
  simp only [requires_memberQuery_iff hcondition, sameAsciiFold, beq_iff_eq] at hname ⊢
  constructor
  · rintro ⟨i, -, d, -, hother, rfl, rfl⟩
    exact ⟨hname.symm.trans hother, rfl⟩
  · rintro ⟨hother, rfl⟩
    obtain ⟨i, hi, hmem, -⟩ := elementModifier_declared hdeclared
    exact ⟨i, hi, declared, hmem, hname.trans hother, rfl, rfl⟩

namespace Condition

variable {scope : Scope} {index : String} {c : Clause} {modifier : Modifier} {sql : String}
  {later : List (String × Modifier)}

/-! ## §3. Clauses on fields. -/

/-- A modifier that no index declares makes the clause fail. -/
theorem result_field_of_undeclared
    (hmod : elementModifier? c.relation.modifiers = some (name, modifier))
    (hundeclared : ¬ (scope.indexes index).Declares name) :
    (field scope index c).result = .error (.query
      (if '\'' ∈ index.toList then .quotedIndex index else .relationModifier modifier.name)) := by
  have hnone : (scope.indexes index).elementModifier name = none :=
    FieldIndexes.elementModifier_eq_none_iff.2 hundeclared
  unfold field Scope.field
  by_cases hquote : '\'' ∈ index.toList
  · rw [if_pos hquote, if_pos (by simpa using hquote)]
    rfl
  · rw [if_neg hquote, if_neg (by simpa using hquote),
      Logged.result_bind_ok (Logged.result_ofExcept _), hmod]
    dsimp only
    rw [hnone]
    rfl

/-- A clause with a modifier is a search for its member, behind which a
condition on the element stands. -/
theorem exists_memberQuery_of_field (hs : scope.IsBalanced true)
    (hparts : (scope.indexes index).UnquotedParts)
    (hmod : elementModifier? c.relation.modifiers = some (name, modifier))
    (h : (field scope index c).result = .ok sql) :
    ∃ declared part array condition,
      (scope.indexes index).elementModifier name = some (declared, part) ∧
      IsPlainCondition (tokens condition) ∧
      readElements? (tokens sql)
        = some (memberQuery array scope.table declared (modifier.value.getD "") condition) := by
  obtain ⟨f, hf, -⟩ := field_outcome h
  obtain ⟨-, -, hquote⟩ := hs.field hf
  obtain ⟨declared, part, before, column, condition, hdeclared, hcut, hcondition, rfl⟩ :=
    (field_eq_ok_iff_of_element hf hmod).1 h
  obtain ⟨i, hi, hmem, rfl⟩ := elementModifier_declared hdeclared
  exact ⟨declared, _, jsonPath column index, condition, hdeclared,
    isPlainCondition_element (hparts i hi declared hmem) hcondition,
    readElements?_element hs hquote (hparts i hi declared hmem) hcut hcondition declared _⟩

/-- Of the modifiers that address array elements the first has to be declared
and is honoured.  The other ones are honoured just when they repeat it. -/
theorem elementModifiers_honoured_iff
    (hmods : elementModifiers c.relation.modifiers = (name, modifier) :: later) :
    (¬ (scope.indexes index).Declares name →
      (field scope index c).result = .error (.query
        (if '\'' ∈ index.toList then .quotedIndex index else .relationModifier modifier.name))) ∧
    ∀ sql, (field scope index c).result = .ok sql →
      (scope.indexes index).Declares name ∧
      (scope.IsBalanced true → (scope.indexes index).UnquotedParts →
        ∃ q, readElements? (tokens sql) = some q ∧
          (scope.indexes index).Honours q name (modifier.value.getD "") ∧
          ((∀ m ∈ elementModifiers c.relation.modifiers,
              (scope.indexes index).Honours q m.1 (m.2.value.getD "")) ↔
            ∀ m ∈ later, sameAsciiFold name m.1 = true ∧
              m.2.value.getD "" = modifier.value.getD "")) := by
  have hmod : elementModifier? c.relation.modifiers = some (name, modifier) := by
    rw [elementModifier?_eq_head?, hmods]
    rfl
  refine ⟨result_field_of_undeclared hmod, fun sql h => ⟨?_, ?_⟩⟩
  · obtain ⟨f, hf, -⟩ := field_outcome h
    obtain ⟨declared, part, -, -, -, hdeclared, -⟩ := (field_eq_ok_iff_of_element hf hmod).1 h
    exact .of_elementModifier hdeclared
  · intro hs hparts
    obtain ⟨declared, part, array, condition, hdeclared, hplain, hread⟩ :=
      exists_memberQuery_of_field hs hparts hmod h
    have hhonours : ∀ other text, (scope.indexes index).Honours
        (memberQuery array scope.table declared (modifier.value.getD "") condition) other text ↔
          sameAsciiFold name other = true ∧ text = modifier.value.getD "" :=
      fun _ _ => FieldIndexes.honours_memberQuery_iff hdeclared hplain
    have hself : sameAsciiFold name name = true := by simp [sameAsciiFold]
    refine ⟨_, hread, (hhonours _ _).2 ⟨hself, rfl⟩, ?_⟩
    rw [hmods]
    simp only [List.forall_mem_cons, hhonours, hself, and_self, true_and]

/-- A scope with a field that holds an array whose elements have a kind. -/
def kindScope : Scope :=
  Scope.ofColumns ["t.jsonb"]
    { tables := [{ tableName := "t",
                   index := [{ fieldName := "f", arraySubfield := some "value",
                               arrayModifiers := ["kind"] }] }] } [] .strict

/-- A modifier that is repeated in capitals is honoured both times. -/
theorem elementModifiers_honoured_repeated :
    ∃ sql q, (field kindScope "f" ⟨"f", ⟨"==", [⟨"@kind", some "=", some "a"⟩,
        ⟨"@KIND", some "=", some "a"⟩]⟩, "x"⟩).result = .ok sql ∧
      readElements? (tokens sql) = some q ∧
      (kindScope.indexes "f").Honours q "kind" "a" ∧
      (kindScope.indexes "f").Honours q "KIND" "a" := by
  have hsql : (field kindScope "f" ⟨"f", ⟨"==", [⟨"@kind", some "=", some "a"⟩,
      ⟨"@KIND", some "=", some "a"⟩]⟩, "x"⟩).result = .ok
        ("id in (select t.id from (select id as id, jsonb_array_elements(jsonb->'f') as c from t)"
          ++ " as t where t.c @> '\x7b\"kind\": \"a\"\x7d' and "
          ++ "lower(f_unaccent(t.c->>'value')) LIKE lower(f_unaccent('x')))") :=
    Logged.result_eq_ok_iff.2 (by decide +kernel)
  obtain ⟨-, hhonoured⟩ := (elementModifiers_honoured_iff rfl).2 _ hsql
  obtain ⟨q, hq, hkind, hall⟩ := hhonoured (by decide +kernel) (by decide +kernel)
  have hboth := hall.2 (by decide)
  exact ⟨_, q, hsql, hq, hkind, hboth ("KIND", ⟨"@KIND", some "=", some "a"⟩) (by decide)⟩

/-- Behind a declared modifier one that no index declares is ignored. -/
theorem elementModifiers_ignored_undeclared :
    (field kindScope "f" ⟨"f", ⟨"==", [⟨"@kind", some "=", some "a"⟩,
        ⟨"@lang", some "=", some "en"⟩]⟩, "x"⟩).result = .ok
      ("id in (select t.id from (select id as id, jsonb_array_elements(jsonb->'f') as c from t)"
        ++ " as t where t.c @> '\x7b\"kind\": \"a\"\x7d' and "
        ++ "lower(f_unaccent(t.c->>'value')) LIKE lower(f_unaccent('x')))") ∧
    ¬ (kindScope.indexes "f").Declares "lang" :=
  ⟨Logged.result_eq_ok_iff.2 (by decide +kernel), by decide +kernel⟩

end Condition

end CqlToSql
