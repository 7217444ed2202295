/-
  CqlToSql.Proofs.Query.Printing
  ──────────────────────────────
  **Reading undoes printing.**  A query tree is printable when each of its
  names and values is a word, each relation a comparison symbol or a word that
  is no keyword, and each search term can stand between double quotes.

  Main statement: the text of a printable tree is read as this tree.  It comes
  in two steps.  The printed text has tokens from which the grammar derives
  the tree, which follows the shape of the tree; and the reader accepts what
  the grammar derives.
-/
import CqlToSql.Proofs.Query.Grammar
import CqlToSql.Proofs.Text.Characters

namespace CqlToSql

open CqlToSql.Text
open CqlToSql.Grammar

/-! ## §1. Printable trees. -/

/-- The text is one word: not empty, without blanks and delimiters. -/
def IsWord (s : String) : Prop := s.toList ≠ [] ∧ ∀ c ∈ s.toList, isDelimiter c = false

instance (s : String) : Decidable (IsWord s) :=
  decidable_of_iff (s.toList ≠ [] ∧ s.toList.all (!isDelimiter ·) = true) (by simp [IsWord])

/-- The text can stand between double quotes: each double quote has a backslash
before it that is not itself escaped, and no backslash at the end is left with
nothing to escape. -/
def isQuotable : List Char → Bool
  | [] => true
  | ['\\'] => false
  | '\\' :: _ :: cs => isQuotable cs
  | c :: cs => c != '"' && isQuotable cs

/-- A comparison symbol, or a word that is no keyword. -/
def IsRelationText (s : String) : Prop :=
  (∃ c : Comparison, s = c.text) ∨ (IsWord s ∧ ∀ k ∈ keywords, ¬ Spells k s)

/-- A modifier without comparison and value, or with both. -/
def Modifier.IsPrintable (m : Modifier) : Prop :=
  IsWord m.name ∧
    ((m.comparison = none ∧ m.value = none) ∨
      ∃ (c : Comparison) (v : String), m.comparison = some c.text ∧ m.value = some v ∧ IsWord v)

def Clause.IsPrintable (c : Clause) : Prop :=
  IsWord c.index ∧ IsRelationText c.relation.base
    ∧ (∀ m ∈ c.relation.modifiers, m.IsPrintable) ∧ isQuotable c.term.toList = true

def SortKey.IsPrintable (k : SortKey) : Prop :=
  IsWord k.index ∧ ∀ m ∈ k.modifiers, m.IsPrintable

/-- A tree without sort keys whose clauses are printable. -/
def Query.IsPrintableExpression : Query → Prop
  | .clause c => c.IsPrintable
  | .boolean _ left right => left.IsPrintableExpression ∧ right.IsPrintableExpression
  | .sorted _ _ => False

/-- A printable tree; sort keys stand at its root only. -/
def Query.IsPrintable : Query → Prop
  | .sorted q keys => q.IsPrintableExpression ∧ keys ≠ [] ∧ ∀ k ∈ keys, k.IsPrintable
  | q => q.IsPrintableExpression

/-! ## §2. Tokens at the start of a text. -/

/-- The text has these tokens, wherever in a query it stands. -/
def Lexes (cs : List Char) (ts : List Token) : Prop :=
  ∀ position, ∃ located, scanFrom position cs = .ok located ∧ located.map Located.token = ts

theorem lexes_nil : Lexes [] [] := by
  intro position
  exact ⟨[], by rw [scanFrom], rfl⟩

/-- Blanks mean nothing. -/
theorem Lexes.blank {c : Char} (hc : isBlank c = true) {cs : List Char} {ts : List Token}
    (h : Lexes cs ts) : Lexes (c :: cs) ts := by
  intro position
  obtain ⟨located, hscan, hmap⟩ := h (position + c.utf8Size)
  exact ⟨located, by rw [scanFrom, if_pos hc, hscan], hmap⟩

theorem scanFrom_token {c : Char} {cs rest : List Char} {t : Token} (hblank : isBlank c = false)
    (hfirst : firstToken c cs = some (t, rest)) (position : Nat) :
    scanFrom position (c :: cs)
      = (scanFrom (position + byteLength t.spelling) rest).map ({ token := t, position } :: ·) := by
  rw [scanFrom, if_neg (by simp [hblank])]
  split
  · simp_all
  · rename_i t' rest' he
    rw [hfirst] at he
    cases he
    cases scanFrom (position + byteLength t.spelling) rest <;> rfl

/-- One token, then those of the rest. -/
theorem Lexes.token {c : Char} {cs rest : List Char} {t : Token} {ts : List Token}
    (hblank : isBlank c = false) (hfirst : firstToken c cs = some (t, rest)) (h : Lexes rest ts) :
    Lexes (c :: cs) (t :: ts) := by
  intro position
  obtain ⟨located, hscan, hmap⟩ := h (position + byteLength t.spelling)
  refine ⟨{ token := t, position } :: located, ?_, by rw [List.map_cons, hmap]⟩
  rw [scanFrom_token hblank hfirst, hscan]
  rfl

/-- The text ends a word before it. -/
def EndsWord (rest : List Char) : Prop := ∀ c ∈ rest.head?, isDelimiter c = true

/-- The text ends a word or a comparison symbol before it. -/
def Separates (rest : List Char) : Prop :=
  ∀ c ∈ rest.head?, isDelimiter c = true ∧ c ≠ '=' ∧ c ≠ '>'

theorem Separates.endsWord {rest : List Char} (h : Separates rest) : EndsWord rest :=
  fun c hc => (h c hc).1

theorem separates_nil : Separates [] := by
  simp [Separates]

theorem separates_cons {c : Char} (hc : isDelimiter c = true ∧ c ≠ '=' ∧ c ≠ '>')
    (cs : List Char) : Separates (c :: cs) := by
  intro d hd
  simp only [List.head?_cons, Option.mem_def, Option.some.injEq] at hd
  exact hd ▸ hc

/-- A character that does not end a word starts one. -/
theorem firstToken_word {c : Char} (hc : isDelimiter c = false) (cs : List Char) :
    firstToken c cs
      = some (.word (String.ofList ((c :: cs).takeWhile (!isDelimiter ·))),
          (c :: cs).dropWhile (!isDelimiter ·)) := by
  unfold firstToken
  split
  case h_12 => rfl
  all_goals exact absurd hc (by decide)

/-- A word is the first token, up to what ends it. -/
theorem firstToken_isWord {w : String} (hw : IsWord w) {rest : List Char} (hrest : EndsWord rest) :
    ∃ c cs, w.toList ++ rest = c :: cs ∧ isBlank c = false
      ∧ firstToken c cs = some (.word w, rest) := by
  obtain ⟨hne, hall⟩ := hw
  obtain ⟨c, cs, hcs⟩ := List.exists_cons_of_ne_nil hne
  have hc : isDelimiter c = false := hall c (by simp [hcs])
  have hinside : ∀ d ∈ w.toList, (!isDelimiter d) = true := by
    intro d hd
    simp [hall d hd]
  -- the word ends at the separator, so it is taken as a whole
  have hstop : rest.takeWhile (!isDelimiter ·) = [] ∧ rest.dropWhile (!isDelimiter ·) = rest := by
    cases rest with
    | nil => simp
    | cons d rest =>
      have hd := hrest d (by simp)
      simp [hd]
  have hwhole : c :: (cs ++ rest) = w.toList ++ rest := by rw [hcs, List.cons_append]
  refine ⟨c, cs ++ rest, hwhole.symm, (isDelimiter_eq_false_iff.1 hc).1, ?_⟩
  rw [firstToken_word hc, hwhole, List.takeWhile_append_of_pos hinside,
    List.dropWhile_append_of_pos hinside, hstop.1, hstop.2, List.append_nil, String.ofList_toList]

theorem Lexes.word {w : String} (hw : IsWord w) {rest : List Char} {ts : List Token}
    (hrest : EndsWord rest) (h : Lexes rest ts) : Lexes (w.toList ++ rest) (.word w :: ts) := by
  obtain ⟨c, cs, hcs, hblank, hfirst⟩ := firstToken_isWord hw hrest
  rw [hcs]
  exact Lexes.token hblank hfirst h

/-- The characters that make a longer symbol of this one. -/
def Comparison.extensions : Comparison → List Char
  | .equal => ['=']
  | .less => ['=', '>']
  | .greater => ['=']
  | _ => []

theorem Comparison.mem_extensions {c : Comparison} {x : Char} (h : x ∈ c.extensions) :
    x = '=' ∨ x = '>' := by
  cases c <;> simp_all [Comparison.extensions]

/-- A comparison symbol that does not go on is the first token. -/
theorem firstToken_symbol (c : Comparison) {rest : List Char}
    (hrest : ∀ x ∈ rest.head?, x ∉ c.extensions) :
    ∃ d ds, c.text.toList ++ rest = d :: ds ∧ isBlank d = false
      ∧ firstToken d ds = some (.symbol c, rest) := by
  -- a symbol of one character could be the start of one of two
  cases c with
  | equal =>
    refine ⟨'=', rest, rfl, by decide, ?_⟩
    cases rest <;> simp_all [firstToken, Comparison.extensions]
  | less =>
    refine ⟨'<', rest, rfl, by decide, ?_⟩
    cases rest <;> simp_all [firstToken, Comparison.extensions]
  | greater =>
    refine ⟨'>', rest, rfl, by decide, ?_⟩
    cases rest <;> simp_all [firstToken, Comparison.extensions]
  | exact => exact ⟨'=', '=' :: rest, rfl, by decide, rfl⟩
  | unequal => exact ⟨'<', '>' :: rest, rfl, by decide, rfl⟩
  | atMost => exact ⟨'<', '=' :: rest, rfl, by decide, rfl⟩
  | atLeast => exact ⟨'>', '=' :: rest, rfl, by decide, rfl⟩

/-- A comparison symbol ends the word before it. -/
theorem endsWord_symbol (c : Comparison) (rest : List Char) : EndsWord (c.text.toList ++ rest) := by
  intro d hd
  cases c <;> simp [Comparison.text] at hd <;> subst hd <;> decide

theorem Lexes.symbol (c : Comparison) {rest : List Char} {ts : List Token}
    (hequal : rest.head? ≠ some '=') (hgreater : rest.head? ≠ some '>') (h : Lexes rest ts) :
    Lexes (c.text.toList ++ rest) (.symbol c :: ts) := by
  have hrest : ∀ x ∈ rest.head?, x ∉ c.extensions := by
    intro x hx hmem
    rcases Comparison.mem_extensions hmem with rfl | rfl
    · exact hequal hx
    · exact hgreater hx
  obtain ⟨d, ds, hds, hblank, hfirst⟩ := firstToken_symbol c hrest
  rw [hds]
  exact Lexes.token hblank hfirst h

theorem quotedBody_append {cs : List Char} (hcs : isQuotable cs = true) (rest : List Char) :
    quotedBody (cs ++ '"' :: rest) = some (cs, rest) := by
  fun_induction isQuotable cs with
  | case1 => rfl
  | case2 => simp at hcs
  | case3 c cs ih => simp [quotedBody, ih hcs]
  | case4 c cs hend hpair ih =>
    simp only [Bool.and_eq_true, bne_iff_ne, ne_eq] at hcs
    have hc := ne_backslash_of_cases hend hpair
    rw [List.cons_append, quotedBody]
    · rw [ih hcs.2]
      rfl
    · exact hcs.1
    · exact fun _ _ h _ => hc h

theorem Lexes.quoted {s : String} (hs : isQuotable s.toList = true) {rest : List Char}
    {ts : List Token} (h : Lexes rest ts) :
    Lexes ('"' :: s.toList ++ '"' :: rest) (.quoted s :: ts) := by
  refine Lexes.token (by decide) ?_ h
  show (quotedBody (s.toList ++ '"' :: rest)).map _ = _
  rw [quotedBody_append hs]
  simp

/-! ## §3. Modifiers. -/

/-- Printed modifiers end the word before them, if what follows them does. -/
theorem separates_renderModifiers (ms : List Modifier) {rest : List Char} (h : Separates rest) :
    Separates ((renderModifiers ms).toList ++ rest) := by
  cases ms with
  | nil => exact h
  | cons m ms =>
    have hslash : ∃ cs, m.render.toList = '/' :: cs := by
      unfold Modifier.render
      split <;> simp [String.toList_append]
    obtain ⟨cs, hcs⟩ := hslash
    rw [renderModifiers, String.toList_append, hcs]
    exact separates_cons (by decide) _

/-- A word does not start with a character that could go on with a symbol. -/
theorem IsWord.head?_ne {w : String} (hw : IsWord w) {d : Char} (hd : isDelimiter d = true)
    (rest : List Char) : (w.toList ++ rest).head? ≠ some d := by
  obtain ⟨hne, hall⟩ := hw
  obtain ⟨c, cs, hcs⟩ := List.exists_cons_of_ne_nil hne
  rw [hcs] at hall ⊢
  intro h
  simp only [List.cons_append, List.head?_cons, Option.some.injEq] at h
  rw [← h, hall c (by simp)] at hd
  exact absurd hd (by simp)

/-- The tokens of printed modifiers, from which the grammar derives them. -/
theorem lexes_renderModifiers {ms : List Modifier} (hms : ∀ m ∈ ms, m.IsPrintable) :
    ∃ ts, Modifiers ts ms ∧ ∀ {rest us}, Separates rest → Lexes rest us →
      Lexes ((renderModifiers ms).toList ++ rest) (ts ++ us) := by
  induction ms with
  | nil => exact ⟨[], .nil, fun _ h => h⟩
  | cons m ms ih =>
    obtain ⟨ts, hts, hlex⟩ := ih fun m' hm' => hms m' (List.mem_cons_of_mem _ hm')
    obtain ⟨hname, hrest⟩ := hms m List.mem_cons_self
    obtain ⟨name, comparison, value⟩ := m
    rcases hrest with ⟨hc, hv⟩ | ⟨c, v, hc, hv, hword⟩
    · simp only at hname hc hv
      subst hc hv
      refine ⟨_, .flag name hts, fun {rest us} hsep h => ?_⟩
      have htext : (renderModifiers (⟨name, none, none⟩ :: ms)).toList ++ rest
          = '/' :: (name.toList ++ ((renderModifiers ms).toList ++ rest)) := by
        simp [renderModifiers, Modifier.render]
      rw [htext]
      refine Lexes.token (by decide) rfl ?_
      exact Lexes.word hname (separates_renderModifiers ms hsep).endsWord (hlex hsep h)
    · simp only at hname hc hv
      subst hc hv
      refine ⟨_, .valued name c (.word v) hts, fun {rest us} hsep h => ?_⟩
      have htext : (renderModifiers (⟨name, some c.text, some v⟩ :: ms)).toList ++ rest
          = '/' :: (name.toList ++ (c.text.toList
              ++ (v.toList ++ ((renderModifiers ms).toList ++ rest)))) := by
        simp [renderModifiers, Modifier.render]
      rw [htext]
      refine Lexes.token (by decide) rfl ?_
      refine Lexes.word hname (endsWord_symbol c _) ?_
      -- the value starts with a character of a word, which no symbol goes on with
      refine Lexes.symbol c (hword.head?_ne (by decide) _) (hword.head?_ne (by decide) _) ?_
      exact Lexes.word hword (separates_renderModifiers ms hsep).endsWord (hlex hsep h)

/-! ## §4. Clauses and trees. -/

/-- A printed relation is one token, which the grammar takes as its base. -/
theorem lexes_relationText {base : String} (hbase : IsRelationText base) :
    ∃ t, IsBase t base ∧ ∀ {rest us}, Separates rest → Lexes rest us →
      Lexes (base.toList ++ rest) (t :: us) := by
  rcases hbase with ⟨c, rfl⟩ | ⟨hword, hkeyword⟩
  · refine ⟨.symbol c, .symbol c, fun {rest us} hsep h => ?_⟩
    refine Lexes.symbol c ?_ ?_ h
    · intro he
      exact (hsep '=' he).2.1 rfl
    · intro hg
      exact (hsep '>' hg).2.2 rfl
  · exact ⟨.word base, .word base hkeyword, fun hsep h => Lexes.word hword hsep.endsWord h⟩

/-- The tokens of a printed clause, from which the grammar derives it. -/
theorem Clause.lexes_render {c : Clause} (hc : c.IsPrintable) :
    ∃ ts, Operand ts (.clause c) ∧ ∀ {rest us}, Lexes rest us →
      Lexes (c.render.toList ++ rest) (ts ++ us) := by
  obtain ⟨index, ⟨base, modifiers⟩, term⟩ := c
  obtain ⟨hindex, hbase, hmodifiers, hterm⟩ := hc
  obtain ⟨t, ht, hlexBase⟩ := lexes_relationText hbase
  obtain ⟨ts, hts, hlexModifiers⟩ := lexes_renderModifiers hmodifiers
  refine ⟨_, .clause (.word index) ht hts (.quoted term), fun {rest us} h => ?_⟩
  have htext : (Clause.render ⟨index, ⟨base, modifiers⟩, term⟩).toList ++ rest
      = index.toList ++ ' ' :: (base.toList ++ ((renderModifiers modifiers).toList
          ++ ' ' :: ('"' :: term.toList ++ '"' :: rest))) := by
    simp [Clause.render]
  have htokens : Token.word index :: t :: ts ++ [.quoted term] ++ us
      = .word index :: t :: (ts ++ .quoted term :: us) := by
    simp
  -- the blank before the term ends the relation and its modifiers
  have hblank : Separates (' ' :: ('"' :: term.toList ++ '"' :: rest)) :=
    separates_cons (by decide) _
  rw [htext, htokens]
  refine Lexes.word hindex (separates_cons (by decide) _).endsWord ?_
  refine Lexes.blank (by decide) ?_
  refine hlexBase (separates_renderModifiers modifiers hblank) ?_
  refine hlexModifiers hblank ?_
  exact Lexes.blank (by decide) (Lexes.quoted hterm h)

theorem Operator.isWord_render (op : Operator) : IsWord op.render := by
  cases op <;> decide

/-- The tokens of a printed tree without sort keys.  Operands are printed in
parentheses, so each is derived as an operand on its own. -/
theorem Query.lexes_render {q : Query} (hq : q.IsPrintableExpression) :
    ∃ ts, Expression ts q ∧ ∀ {rest us}, Lexes rest us →
      Lexes (q.render.toList ++ rest) (ts ++ us) := by
  induction q with
  | clause c =>
    obtain ⟨ts, hts, hlex⟩ := Clause.lexes_render hq
    exact ⟨ts, .operand hts, hlex⟩
  | boolean op left right ihl ihr =>
    obtain ⟨ls, hls, hlexLeft⟩ := ihl hq.1
    obtain ⟨rs, hrs, hlexRight⟩ := ihr hq.2
    have hop : Spells op.render op.render := by cases op <;> decide
    refine ⟨_, .combined (.operand (.group hls)) hop (.group hrs), fun {rest us} h => ?_⟩
    have htext : (Query.boolean op left right).render.toList ++ rest
        = '(' :: (left.render.toList ++ ')' :: ' ' :: (op.render.toList
            ++ ' ' :: '(' :: (right.render.toList ++ ')' :: rest))) := by
      simp [Query.render]
    have htokens : Token.openParen :: ls ++ [.closeParen]
          ++ .word op.render :: (.openParen :: rs ++ [.closeParen]) ++ us
        = .openParen :: (ls ++ .closeParen :: .word op.render
            :: .openParen :: (rs ++ .closeParen :: us)) := by
      simp
    rw [htext, htokens]
    refine Lexes.token (by decide) rfl (hlexLeft ?_)
    refine Lexes.token (by decide) rfl (Lexes.blank (by decide) ?_)
    refine Lexes.word (Operator.isWord_render op) (separates_cons (by decide) _).endsWord ?_
    refine Lexes.blank (by decide) (Lexes.token (by decide) rfl (hlexRight ?_))
    exact Lexes.token (by decide) rfl h
  | sorted q keys ih => exact absurd hq (by simp [Query.IsPrintableExpression])

/-! ## §5. Sort keys. -/

/-- The tokens of a printed sort key. -/
theorem SortKey.lexes_render {k : SortKey} (hk : k.IsPrintable) :
    ∃ ms, Modifiers ms k.modifiers ∧ ∀ {rest us}, Separates rest → Lexes rest us →
      Lexes (' ' :: (k.index.toList ++ ((renderModifiers k.modifiers).toList ++ rest)))
        (.word k.index :: ms ++ us) := by
  obtain ⟨hindex, hmodifiers⟩ := hk
  obtain ⟨ms, hms, hlex⟩ := lexes_renderModifiers hmodifiers
  refine ⟨ms, hms, fun hsep h => Lexes.blank (by decide) ?_⟩
  exact Lexes.word hindex (separates_renderModifiers _ hsep).endsWord (hlex hsep h)

theorem toList_renderKeys_cons (k : SortKey) (keys : List SortKey) :
    (renderKeys (k :: keys)).toList
      = ' ' :: (k.index.toList ++ ((renderModifiers k.modifiers).toList
          ++ (renderKeys keys).toList)) := by
  simp [renderKeys]

theorem separates_renderKeys (keys : List SortKey) : Separates (renderKeys keys).toList := by
  cases keys with
  | nil => exact separates_nil
  | cons k keys =>
    rw [toList_renderKeys_cons]
    exact separates_cons (by decide) _

/-- The tokens of printed sort keys, from which the grammar derives them. -/
theorem lexes_renderKeys {keys : List SortKey} (hne : keys ≠ [])
    (hkeys : ∀ k ∈ keys, k.IsPrintable) :
    ∃ ts, Keys ts keys ∧ Lexes (renderKeys keys).toList ts := by
  induction keys with
  | nil => exact absurd rfl hne
  | cons k keys ih =>
    obtain ⟨ms, hms, hlex⟩ := SortKey.lexes_render (hkeys k List.mem_cons_self)
    rw [toList_renderKeys_cons]
    cases keys with
    | nil =>
      have hend : Lexes (renderKeys []).toList [] := lexes_nil
      have hkey := hlex (separates_renderKeys []) hend
      rw [List.append_nil] at hkey
      exact ⟨_, .last (.word k.index) hms, hkey⟩
    | cons k' keys =>
      obtain ⟨ts, hts, hrest⟩ := ih (by simp) fun j hj => hkeys j (List.mem_cons_of_mem _ hj)
      exact ⟨_, .cons (.word k.index) hms hts, hlex (separates_renderKeys _) hrest⟩

/-! ## §6. The round trip. -/

/-- The tokens of a printable tree, from which the grammar derives it. -/
theorem Query.IsPrintable.lexes_render {q : Query} (hq : q.IsPrintable) :
    ∃ ts, Derives ts q ∧ Lexes q.render.toList ts := by
  -- without sort keys the text is that of an expression
  have hunsorted : q.IsPrintableExpression → ∃ ts, Derives ts q ∧ Lexes q.render.toList ts := by
    intro h
    obtain ⟨ts, hts, hlex⟩ := Query.lexes_render h
    have hwhole := hlex lexes_nil
    rw [List.append_nil, List.append_nil] at hwhole
    exact ⟨ts, .unsorted hts, hwhole⟩
  cases q with
  | clause c => exact hunsorted hq
  | boolean op left right => exact hunsorted hq
  | sorted q keys =>
    obtain ⟨hexpression, hne, hkeys⟩ := hq
    obtain ⟨ts, hts, hlex⟩ := Query.lexes_render hexpression
    obtain ⟨ks, hks, hlexKeys⟩ := lexes_renderKeys hne hkeys
    refine ⟨_, .sorted hts (w := "sortBy") (by decide) hks, ?_⟩
    have htext : (Query.sorted q keys).render.toList
        = q.render.toList ++ ' ' :: ("sortBy".toList ++ (renderKeys keys).toList) := by
      simp [Query.render]
    have hword : IsWord "sortBy" := by decide
    rw [htext]
    refine hlex (Lexes.blank (by decide) ?_)
    exact Lexes.word hword (separates_renderKeys keys).endsWord hlexKeys

/-- A text is read as the tree that the grammar derives from its tokens. -/
theorem Query.parse_of_lexes {text : String} {ts : List Token} {q : Query}
    (hderived : Derives ts q) (hlex : Lexes text.toList ts) : Query.parse text = .ok q := by
  obtain ⟨located, hscan, htokens⟩ := hlex 0
  have hread : readQuery (located.map Located.token) = .ok q := by
    rw [htokens]
    exact readQuery_of_derives hderived
  unfold Query.parse
  rw [show scan text = .ok located from hscan]
  simp only [hread]

/-- **Reading undoes printing**: the text of a printable tree is read as this
tree. -/
theorem Query.parse_render {q : Query} (hq : q.IsPrintable) : Query.parse q.render = .ok q := by
  obtain ⟨ts, hderived, hlex⟩ := hq.lexes_render
  exact Query.parse_of_lexes hderived hlex

/-- A tree with operators on both sides, modifiers with and without values, an
escaped quote in a term and keywords as index and sort key. -/
theorem Query.parse_render_nested :
    let q := Query.sorted
      (.boolean .not
        (.clause ⟨"and", ⟨"<>", [⟨"@type", some "<=", some "x*"⟩, ⟨"number", none, none⟩]⟩,
          "say \\\"no\\\" (now)"⟩)
        (.boolean .or (.clause ⟨"title", ⟨"adj", []⟩, ""⟩) (.clause ⟨"a.b", ⟨"=", []⟩, "\\\\"⟩)))
      [⟨"or", [⟨"sort.descending", none, none⟩]⟩, ⟨"b", []⟩]
    q.IsPrintable ∧ Query.parse q.render = .ok q := by
  intro q
  have hfirst : ∀ m ∈ [⟨"@type", some "<=", some "x*"⟩, ⟨"number", none, none⟩],
      Modifier.IsPrintable m := by
    intro m hm
    simp only [List.mem_cons, List.not_mem_nil, or_false] at hm
    rcases hm with rfl | rfl
    · exact ⟨by decide, .inr ⟨.atMost, "x*", rfl, rfl, by decide⟩⟩
    · exact ⟨by decide, .inl ⟨rfl, rfl⟩⟩
  have hkey : Modifier.IsPrintable ⟨"sort.descending", none, none⟩ :=
    ⟨by decide, .inl ⟨rfl, rfl⟩⟩
  have hq : q.IsPrintable := by
    refine ⟨⟨⟨by decide, .inl ⟨.unequal, rfl⟩, hfirst, by decide⟩, ?_, ?_⟩, by simp, ?_⟩
    · exact ⟨by decide, .inr ⟨by decide, by decide⟩, by simp, by decide⟩
    · exact ⟨by decide, .inl ⟨.equal, rfl⟩, by simp, by decide⟩
    · intro k hk
      simp only [List.mem_cons, List.not_mem_nil, or_false] at hk
      rcases hk with rfl | rfl
      · exact ⟨by decide, by simpa using hkey⟩
      · exact ⟨by decide, by simp⟩
  exact ⟨hq, Query.parse_render hq⟩

end CqlToSql
