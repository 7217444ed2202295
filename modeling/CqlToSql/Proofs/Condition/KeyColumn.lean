/-
  CqlToSql.Proofs.Condition.KeyColumn
  ───────────────────────────────────
  **Clauses on the primary key search the key column**, and not the documents.
  A clause on `id`, also at the end of a chain of joins, is made of

      id  and  or  true  false     — words
      =  <  >                      — symbols
      '…'                          — ids

  and the only paths into documents are the fields that hold the foreign keys
  of the joins around it.  The exception is a term that addresses another
  table, which is compared with a field `id` of the documents.
-/
import CqlToSql.Proofs.Condition.ElementModifiers
import CqlToSql.Proofs.Condition.IndexedExpression
import CqlToSql.Proofs.Condition.Joins
import CqlToSql.Proofs.Condition.PrimaryKey

/-! ## §1. Paths in the tokens of a text. -/

namespace CqlToSql.Sql

/-- The path that ends here, if steps have been read. -/
def endPath (path : List String) : List (List String) := if path = [] then [] else [path]

/-- The paths into documents that tokens write, in order; `path` holds the steps
just read. -/
def documentPathsFrom (path : List String) : List Token → List (List String)
  | .symbol '-' :: .symbol '>' :: .symbol '>' :: .quoted part :: ts =>
    documentPathsFrom (path ++ [String.ofList part]) ts
  | .symbol '-' :: .symbol '>' :: .quoted part :: ts =>
    documentPathsFrom (path ++ [String.ofList part]) ts
  | _ :: ts => endPath path ++ documentPathsFrom [] ts
  | [] => endPath path

/-- The paths into documents that tokens write, in order. -/
def documentPaths (ts : List Token) : List (List String) := documentPathsFrom [] ts

variable {path : List String} {t : Token} {ts : List Token}

theorem documentPathsFrom_cons (ht : t ≠ .symbol '-') (path : List String) (ts : List Token) :
    documentPathsFrom path (t :: ts) = endPath path ++ documentPaths ts := by
  rw [documentPathsFrom]
  · rfl
  · rintro part rest rfl
    exact absurd rfl ht
  · rintro part rest rfl
    exact absurd rfl ht

theorem documentPaths_cons (ht : t ≠ .symbol '-') (ts : List Token) :
    documentPaths (t :: ts) = documentPaths ts := documentPathsFrom_cons ht [] ts

theorem documentPaths_of_no_minus (h : .symbol '-' ∉ ts) : documentPaths ts = [] := by
  induction ts with
  | nil => rfl
  | cons t ts ih =>
    rw [List.mem_cons, not_or] at h
    rw [documentPaths_cons (Ne.symm h.1), ih h.2]

theorem documentPathsFrom_stepTokens (path parts : List String) (ts : List Token) :
    documentPathsFrom path (stepTokens parts ++ ts) = documentPathsFrom (path ++ parts) ts := by
  fun_induction stepTokens parts generalizing path with
  | case1 => simp
  | case2 part => simp [documentPathsFrom]
  | case3 part next parts ih => simp [documentPathsFrom, ih]

/-- What tokens start with, they start with before the last parenthesis. -/
theorem eq_append_of_append_closing {front rest : List Token} (hfront : .closing ∉ front)
    (h : ts ++ [.closing] = front ++ rest) : ∃ others, ts = front ++ others := by
  rcases List.append_eq_append_iff.1 h with ⟨more, rfl, hmore⟩ | ⟨more, hts, -⟩
  · cases more with
    | nil => exact ⟨[], by simp⟩
    | cons u us =>
      simp only [List.cons_append, List.cons.injEq] at hmore
      simp [← hmore.1] at hfront
  · exact ⟨more, hts⟩

theorem documentPathsFrom_append_closing (path : List String) (ts : List Token) :
    documentPathsFrom path (ts ++ [.closing]) = documentPathsFrom path ts := by
  fun_induction documentPathsFrom path ts with
  | case1 path part ts ih => simpa [documentPathsFrom] using ih
  | case2 path part ts ih => simpa [documentPathsFrom] using ih
  | case3 path t ts htext hjson ih =>
    -- a step that the parenthesis completes would have to hold it
    rw [List.cons_append, documentPathsFrom, ih]
    · intro part rest ht hrest
      have hfront : .closing ∉ [Token.symbol '>', .symbol '>', .quoted part] := by simp
      obtain ⟨others, hothers⟩ := eq_append_of_append_closing hfront hrest
      exact htext part others ht hothers
    · intro part rest ht hrest
      have hfront : .closing ∉ [Token.symbol '>', .quoted part] := by simp
      obtain ⟨others, hothers⟩ := eq_append_of_append_closing hfront hrest
      exact hjson part others ht hothers
  | case4 path => simp [documentPathsFrom, endPath]

theorem documentPaths_append_closing (ts : List Token) :
    documentPaths (ts ++ [.closing]) = documentPaths ts := documentPathsFrom_append_closing [] ts

end CqlToSql.Sql

namespace CqlToSql

open CqlToSql.Text CqlToSql.Sql CqlToSql.Condition

variable {h : Hop} {inner : String} {links : List Link}

/-! ## §2. Paths around a condition. -/

/-- The field of a key is one path. -/
theorem Hop.documentPaths_keyTokens (h : Hop) (ts : List Sql.Token) :
    documentPaths (h.keyTokens ++ ts) = splitAt '.' h.field :: documentPaths ts := by
  have hpath : endPath (splitAt '.' h.field) = [splitAt '.' h.field] :=
    if_neg (splitAt_ne_nil _ _)
  unfold Hop.keyTokens
  simp only [List.cons_append, List.append_assoc]
  rw [documentPaths_cons (by simp), documentPaths_cons (by simp), documentPaths_cons (by simp),
    documentPaths_cons (by simp), documentPaths, documentPathsFrom_stepTokens, List.nil_append,
    documentPathsFrom_cons (by simp), hpath]
  simp [documentPaths_cons]

/-- A link writes the field of its key, and no other path. -/
theorem Link.documentPaths_text {link : Link} (hl : link.hop.IsNamed) (hi : Balanced true inner) :
    documentPaths (tokens (link.text inner))
      = splitAt '.' link.hop.field :: documentPaths (tokens inner) := by
  cases link with
  | up h =>
    have hh : h.IsNamed := hl
    show documentPaths (tokens (h.intoParent inner)) = _
    rw [Hop.tokens_intoParent hh hi, h.documentPaths_keyTokens]
    simp [subqueryTokens, documentPaths_cons, documentPaths_append_closing, Link.hop]
  | down h =>
    have hh : h.IsNamed := hl
    show documentPaths (tokens (h.intoChild inner)) = _
    rw [Hop.tokens_intoChild hh hi]
    simp [subqueryTokens, documentPaths_cons, h.documentPaths_keyTokens,
      documentPaths_append_closing, Link.hop]

theorem documentPaths_links (hl : ∀ link ∈ links, link.hop.IsNamed) (hi : Balanced true inner) :
    documentPaths (tokens (links.foldr Link.text inner))
      = links.map (fun link => splitAt '.' link.hop.field) ++ documentPaths (tokens inner) := by
  induction links with
  | nil => rfl
  | cons link links ih =>
    have hrest : ∀ link ∈ links, link.hop.IsNamed := fun l hmem =>
      hl l (List.mem_cons_of_mem _ hmem)
    rw [List.foldr_cons, Link.documentPaths_text (hl link List.mem_cons_self)
      (balanced_links hrest hi), ih hrest]
    rfl

/-! ## §3. The texts of clauses on the key. -/

namespace Condition

/-- A token of a condition on the key column. -/
def IsKeyToken : Sql.Token → Bool
  | .word letters => ["id", "and", "or", "true", "false"].any fun word => letters == word.toList
  | .symbol c => ['=', '<', '>'].contains c
  | .quoted _ | .opening | .closing => true
  | .blank => false

variable {operator body term sql : String}

theorem isKeyToken_keyTokens (h : operator ∈ keyOperators) (body : String) :
    (keyTokens operator body).all IsKeyToken = true := by
  have hoperators : ∀ operator ∈ keyOperators,
      (operator.toList.map Sql.Token.symbol).all IsKeyToken = true := by decide
  unfold keyTokens
  rw [List.all_cons, List.all_append, hoperators operator h]
  rfl

theorem isKeyToken_rangeTokens (equal : Bool) (lowest highest : String) :
    (rangeTokens equal lowest highest).all IsKeyToken = true := by
  have hfirst : (if equal then ">=" else "<") ∈ keyOperators := by cases equal <;> decide
  have hsecond : (if equal then "<=" else ">") ∈ keyOperators := by cases equal <;> decide
  unfold rangeTokens
  rw [List.all_cons, List.all_append, List.all_append, List.all_cons,
    isKeyToken_keyTokens hfirst, isKeyToken_keyTokens hsecond]
  cases equal <;> rfl

theorem documentPaths_of_isKeyToken {ts : List Sql.Token} (h : ts.all IsKeyToken = true) :
    documentPaths ts = [] := by
  refine documentPaths_of_no_minus fun hminus => ?_
  exact absurd (List.all_eq_true.1 h _ hminus) (by decide)

/-- What a condition on the key is made of.  Where it does not compare the key,
it is a constant. -/
structure SearchesKey (sql : String) : Prop where
  tokens : (tokens (withoutComments sql)).all IsKeyToken = true
  column : .word keyColumn.toList ∈ Sql.tokens (withoutComments sql) ∨
    ∃ value, ∀ u, keyTruth u sql = .ofBool value
  paths : documentPaths (Sql.tokens sql) = []

theorem IsKeyText.searchesKey (h : IsKeyText term sql) : SearchesKey sql := by
  cases h with
  | constant equal =>
    refine ⟨?_, .inr ⟨equal, fun u => keyTruth_constantKey u equal⟩, ?_⟩
    · cases equal <;> decide +kernel
    · cases equal <;> decide +kernel
  | invalid equal =>
    refine ⟨?_, .inr ⟨!equal, fun u => keyTruth_invalidKey u equal⟩, ?_⟩
    · cases equal <;> decide +kernel
    · cases equal <;> decide +kernel
  | @compared operator hop huuid =>
    have hoperators : [">", "<", ">=", "<=", "=", "<>"] ⊆ keyOperators := by decide
    have hkeys : operator ∈ keyOperators := hoperators hop
    have hall := isKeyToken_keyTokens hkeys term
    rw [← tokens_compared hkeys huuid] at hall
    refine ⟨?_, .inl ?_, documentPaths_of_isKeyToken hall⟩
    · rwa [withoutComments_compared hkeys huuid]
    · rw [withoutComments_compared hkeys huuid, tokens_compared hkeys huuid]
      exact List.mem_cons_self
  | @range equal lowest highest hl hh =>
    have hall := isKeyToken_rangeTokens equal lowest highest
    rw [← tokens_keyRange hl hh] at hall
    refine ⟨?_, .inl ?_, documentPaths_of_isKeyToken hall⟩
    · rwa [withoutComments_keyRange hl hh]
    · rw [withoutComments_keyRange hl hh, tokens_keyRange hl hh]
      simp [rangeTokens, keyTokens]

/-! ## §4. No step in a key text. -/

/-- The text has no step into a document, whatever the step starts from. -/
def IsStepless (cs : List Char) : Prop := cs.IsChain fun a b => ¬ (a = '-' ∧ b = '>')

instance (cs : List Char) : Decidable (IsStepless cs) :=
  inferInstanceAs (Decidable (List.IsChain _ _))

theorem IsStepless.of_no_arrow {cs : List Char} (h : '>' ∉ cs) : IsStepless cs := by
  induction cs with
  | nil => exact .nil
  | cons c cs ih =>
    rw [List.mem_cons, not_or] at h
    refine List.isChain_cons.2 ⟨fun d hd hstep => h.2 ?_, ih h.2⟩
    rw [← hstep.2]
    exact List.mem_of_mem_head? hd

theorem IsStepless.append {a b : List Char} (ha : IsStepless a) (hb : IsStepless b)
    (hhead : b.head? ≠ some '>') : IsStepless (a ++ b) := by
  refine List.isChain_append.2 ⟨ha, hb, fun x _ y hy hstep => hhead ?_⟩
  rw [hstep.2] at hy
  exact hy

/-- A path has a step. -/
theorem IsStepless.not_textPath {cs : List Char} (h : IsStepless cs) (column : String) :
    ¬ (textPath column keyColumn).toList <:+: cs := by
  rintro ⟨before, behind, rfl⟩
  have hpath : textPath column keyColumn = column ++ "->>'id'" := rfl
  have hsteps : before ++ (textPath column keyColumn).toList ++ behind
      = (before ++ column.toList) ++ '-' :: '>' :: (">'id'".toList ++ behind) := by
    simp [hpath]
  rw [hsteps] at h
  exact (List.isChain_append_cons_cons.1 h).2.1 ⟨rfl, rfl⟩

theorem isStepless_literal {body : String} (h : isUuid body = true) :
    IsStepless (literal body).toList := by
  have hbody : '>' ∉ body.toList := not_mem_of_isUuid rfl (by decide) h
  exact .of_no_arrow (by simp [literal, hbody])

theorem head?_literal (body : String) : (literal body).toList.head? ≠ some '>' := by
  simp [literal]

theorem IsKeyText.isStepless (h : IsKeyText term sql) : IsStepless sql.toList := by
  cases h with
  | constant equal => cases equal <;> decide
  | invalid equal => cases equal <;> decide
  | @compared operator hop huuid =>
    have hfront : ∀ op ∈ [">", "<", ">=", "<=", "=", "<>"],
        IsStepless (keyColumn ++ op).toList := by decide
    rw [String.toList_append]
    exact (hfront operator hop).append (isStepless_literal huuid) (head?_literal term)
  | @range equal lowest highest hl hh =>
    -- no piece of the text starts with the second half of a step
    rw [keyRange_eq, String.toList_append, String.toList_append, String.toList_append,
      String.toList_append]
    refine .append (.append (.append (.append ?_ (isStepless_literal hl) (head?_literal _)) ?_ ?_)
      (isStepless_literal hh) (head?_literal _)) ?_ ?_
    · cases equal <;> decide
    · cases equal <;> decide
    · cases equal <;> decide
    · decide
    · decide

end Condition

/-! ## §5. Clauses on the key. -/

variable {scope final : Scope} {c : Clause} {sql : String}

/-- No index on the primary key declares modifiers of array elements. -/
def Schema.KeyIsPlain (s : Schema) : Prop :=
  ∀ t ∈ s.tables, ∀ i ∈ t.allIndexes, i.fieldName = keyColumn → i.arrayModifiers = []

instance (s : Schema) : Decidable s.KeyIsPlain :=
  inferInstanceAs (Decidable
    (∀ t ∈ s.tables, ∀ i ∈ t.allIndexes, i.fieldName = keyColumn → i.arrayModifiers = []))

theorem Scope.resolve_keyColumn (scope : Scope) :
    scope.resolve keyColumn = (scope.column, keyColumn) := by
  unfold Scope.resolve
  split
  · have hnone : scope.columns.findSome? (fun column =>
        (after (column ++ ".") keyColumn).map fun rest => (column, rest)) = none := by
      rw [List.findSome?_eq_none_iff]
      intro column _
      rw [Option.map_eq_none_iff, Option.eq_none_iff_forall_ne_some]
      -- the name of the key has no dot
      intro rest hrest
      have hdot : '.' ∈ keyColumn.toList := by
        rw [after_eq_some_iff.1 hrest]
        simp
      exact absurd hdot (by decide)
    rw [selectColumn, hnone]
    rfl
  · rfl

theorem Scope.not_declares_keyColumn (hkey : scope.schema.KeyIsPlain) (name : String) :
    ¬ (scope.indexes keyColumn).Declares name := by
  rintro ⟨i, hi, declared, hdeclared, -⟩
  obtain ⟨t, ht, hit, hname⟩ := scope.exists_table_of_mem_indexes hi
  rw [scope.resolve_keyColumn] at hname
  simp [hkey t ht i hit hname] at hdeclared

theorem Route.schema_eq {name last : String} (h : Route scope name links final last) :
    final.schema = scope.schema := by
  induction h with
  | here => rfl
  | join _ _ _ _ _ ih => exact ih

namespace Condition

/-- The end of a route at the key: the term is looked at first. -/
theorem clause_keyColumn (scope : Scope) (c : Clause) :
    clause scope { c with index := keyColumn } =
      match termQualifier? scope c.term with
      | some (qualifier, path) =>
        Logged.ofExcept (scope.valueJoin qualifier path { c with index := keyColumn })
      | none => field scope keyColumn { c with index := keyColumn } := by
  have hall : sameAsciiFold keyColumn allRecords = false := by decide +kernel
  have hchoice : sameAsciiFold keyColumn serverChoice = false := by decide +kernel
  have hqualifier : scope.qualifier? keyColumn = none := by
    have hcut : cutFirst '.' keyColumn = none := by decide +kernel
    rw [Scope.qualifier?, hcut]
  rw [clause_of_unqualified hall hqualifier]
  dsimp only
  rw [hchoice]
  rfl

/-- Without modifiers of elements a clause on the key is one on its column. -/
theorem primaryKey_of_field (hkey : scope.schema.KeyIsPlain) {c : Clause}
    (h : (field scope keyColumn c).result = .ok sql) : primaryKey c.relation c.term = .ok sql := by
  obtain ⟨f, -, h⟩ := field_outcome h
  rcases h with ⟨name, modifier, declared, part, -, hdeclared, -⟩ | ⟨-, -, h⟩ | ⟨-, hne, -⟩
  · exact absurd (.of_elementModifier hdeclared) (scope.not_declares_keyColumn hkey name)
  · exact h
  · exact absurd rfl hne

/-- A term that addresses another table is compared with a field of the
documents. -/
theorem textPath_of_valueJoin {qualifier path : String} {c : Clause}
    (hindex : c.index = keyColumn) (hplain : (scope.indexes keyColumn).withExpression = none)
    (h : scope.valueJoin qualifier path c = .ok sql) :
    (textPath scope.column keyColumn).toList <:+: sql.toList := by
  obtain ⟨table, f, -, -, hf, h⟩ := valueJoin_outcome h
  rw [hindex] at hf
  have htext : f.text = textPath scope.column keyColumn := by
    rw [Scope.text_of_field hf, hplain, scope.resolve_keyColumn]
    rfl
  rw [htext] at h
  rcases h with rfl | rfl
  · simp only [String.toList_append, List.append_assoc]
    exact (List.prefix_append _ _).isInfix
  · simp only [String.toList_append, List.append_assoc]
    exact (List.prefix_append _ _).isInfix

/-- **A clause on the key searches the key column.**  The index leads along
links to the key of a table.  Unless the term addresses another table there,
the condition at the end of the links compares the key column with ids or is a
constant, and the whole text has no paths but the fields that hold the keys of
the links.  The condition holds a path to a field `id` of the documents just
when the term addresses another table, where no index of the key is made on an
expression. -/
theorem clause_key_paths (hkey : scope.schema.KeyIsPlain)
    (hroute : Route scope c.index links final keyColumn) (h : (clause scope c).result = .ok sql) :
    ∃ inner, (clause final { c with index := keyColumn }).result = .ok inner ∧
      sql = links.foldr Link.text inner ∧
      (termQualifier? final c.term = none →
        SearchesKey inner ∧
        (scope.schema.check = .ok () →
          (∀ t ∈ scope.schema.tables, ∀ k ∈ t.foreignKeys, '\'' ∉ k.fieldName.toList) →
            documentPaths (tokens sql) = links.map fun link => splitAt '.' link.hop.field)) ∧
      ((final.indexes keyColumn).withExpression = none →
        ((textPath final.column keyColumn).toList <:+: inner.toList ↔
          termQualifier? final c.term ≠ none)) := by
  obtain ⟨links', final', rest, inner, hroute', -, hdeclares, hinner, rfl⟩ := clause_route h
  -- the translation takes the only route there is
  obtain ⟨rfl, rfl, rfl⟩ := hroute'.unique hroute
  refine ⟨inner, hinner, rfl, ?_⟩
  rw [clause_keyColumn] at hinner
  have hfinal : final'.schema.KeyIsPlain := by rwa [hroute.schema_eq]
  cases hterm : termQualifier? final' c.term with
  | none =>
    simp only [hterm] at hinner
    have hprimary := primaryKey_of_field hfinal hinner
    have htext := primaryKey_outcome hprimary
    refine ⟨fun _ => ⟨htext.searchesKey, fun hcheck hkeys => ?_⟩, fun _ => ?_⟩
    · have hnamed : ∀ link ∈ links', link.hop.IsNamed := fun link hmem =>
        isNamed_of_declares hcheck hkeys (hdeclares link hmem)
      rw [documentPaths_links hnamed (balanced_primaryKey hprimary), htext.searchesKey.paths,
        List.append_nil]
    · exact iff_of_false (htext.isStepless.not_textPath final'.column) (by simp)
  | some cut =>
    simp only [hterm, Logged.result_ofExcept] at hinner
    refine ⟨by simp, fun hplain => ?_⟩
    exact iff_of_true (textPath_of_valueJoin rfl hplain hinner) (by simp)

/-- A table and one whose documents hold its ids. -/
def keyScope : Scope :=
  { table := "tablea"
    columns := ["tablea.jsonb"]
    schema :=
      { tables :=
          [{ tableName := "tablea" },
           { tableName := "tableb"
             foreignKeys := [{ fieldName := "tableaId", targetTable := "tablea" }] }] }
    serverChoice := []
    mode := .permissive }

/-- The key of the other table, with the beginning of an id. -/
theorem clause_key_paths_range :
    ∃ sql inner, (clause keyScope ⟨"tableb.id", ⟨"=", []⟩, "1f*"⟩).result = .ok sql ∧
      sql = Hop.intoChild ⟨"tableb", "tableaId", "tablea"⟩ inner ∧ SearchesKey inner ∧
      documentPaths (tokens sql) = [["tableaId"]] ∧
      ¬ (textPath "tableb.jsonb" keyColumn).toList <:+: inner.toList := by
  have hroute : Route keyScope "tableb.id" [.down ⟨"tableb", "tableaId", "tablea"⟩]
      (keyScope.forTable "tableb") keyColumn := by
    have hq : keyScope.qualifier? "tableb.id" = some ("tableb", "id") := by decide +kernel
    have hpath : keyScope.joinPath "tableb" = .ok (.toChild [⟨"tableb", "tableaId", "tablea"⟩]) :=
      Scope.joinPath_eq_toChild_iff.2 (by decide +kernel)
    exact .join (by decide +kernel) hq hpath rfl (.here (.inr (by decide +kernel)))
  have hsql : (clause keyScope ⟨"tableb.id", ⟨"=", []⟩, "1f*"⟩).result = .ok
      ("tablea.id IN  ( SELECT (tableb.jsonb->>'tableaId')::UUID from tableb WHERE "
        ++ "(id>='1f000000-0000-0000-0000-000000000000' and "
        ++ "id<='1fffffff-ffff-ffff-ffff-ffffffffffff'))") :=
    Logged.result_eq_ok_iff.2 (by decide +kernel)
  obtain ⟨inner, hinner, htext, hsearches, hiff⟩ := clause_key_paths (by decide +kernel) hroute hsql
  have hterm : termQualifier? (keyScope.forTable "tableb") "1f*" = none := by decide +kernel
  obtain ⟨hmade, hpaths⟩ := hsearches hterm
  refine ⟨_, inner, hsql, htext, hmade, ?_, fun hpath => (hiff rfl).1 hpath hterm⟩
  rw [hpaths rfl (by decide +kernel)]
  decide +kernel

/-- A term that addresses the other table is compared with a field `id` of the
documents. -/
theorem clause_key_document_field :
    keyScope.schema.KeyIsPlain ∧
    (clause keyScope ⟨"id", ⟨"==", []⟩, "tableb.tableaId"⟩).result = .ok
      "tablea.jsonb->>'id' IN  ( SELECT tableb.jsonb->>'tableaId' from tableb)" ∧
    documentPaths (tokens "tablea.jsonb->>'id' IN  ( SELECT tableb.jsonb->>'tableaId' from tableb)")
      = [["id"], ["tableaId"]] :=
  ⟨by decide +kernel, Logged.result_eq_ok_iff.2 (by decide +kernel), by decide +kernel⟩

end Condition

end CqlToSql
