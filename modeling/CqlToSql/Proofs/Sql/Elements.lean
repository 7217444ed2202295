/-
  CqlToSql.Proofs.Sql.Elements
  ────────────────────────────
  **Searches in the elements of arrays, and their truth for one element.**  Such
  a search selects the rows that have an array with an element for which a
  condition is true:

      id in (select t.id from (select id as id, jsonb_array_elements(array) as c
        from table) as t where condition)

  In the condition a test `t.c @> 'object'` is true of an element that holds all
  members of the JSON object.  The values of the other predicates are given.

  Main statements: an element search that is written for a member and a condition
  is read as one (`readElements?_elementSearch`), and it is true of an element
  just when the element holds the member and the condition is true
  (`truth_memberQuery`).  It requires no other member of an element
  (`requires_memberQuery_iff`).
-/
import CqlToSql.Proofs.Json.Quoted
import CqlToSql.Proofs.Sql.Like

namespace CqlToSql.Sql

open CqlToSql.Text CqlToSql.Condition

variable {ts us : List Token} {v w : Assignment}

/-! ## §1. Tests of members. -/

/-- The members of a JSON object that holds texts alone. -/
def stringMembers : Json.Value → Option (List (String × String))
  | .object members => members.mapM fun
    | (some name, .string (some value)) => some (name, value)
    | _ => none
  | _ => none

/-- The tokens of a test for the members of an object. -/
def containmentTokens (object : List Char) : List Token :=
  [.word ['t'], .symbol '.', .word ['c'], .symbol '@', .symbol '>', .quoted object]

/-- The members that a predicate tests an element for. -/
def containment? : List Token → Option (List (String × String))
  | [.word ['t'], .symbol '.', .word ['c'], .symbol '@', .symbol '>', .quoted object] =>
    (Json.Value.parse (String.ofList object)).bind stringMembers
  | _ => none

/-- The values of predicates for an element, of which `element` gives the texts
of its members. -/
def memberTruth (element : String → Option String) (v : Assignment) : Assignment := fun ts =>
  match containment? ts with
  | some members => .ofBool (members.all fun (name, value) => element name == some value)
  | none => v ts

/-- The object with one member, as JSON text. -/
def memberObject (name value : String) : String :=
  "\x7b" ++ Json.quote name ++ ": " ++ Json.quote value ++ "\x7d"

/-- A test for an object of one member. -/
theorem memberTruth_member (element : String → Option String) (name value : String) :
    memberTruth element v (containmentTokens (memberObject name value).toList)
      = .ofBool (element name == some value) := by
  have htest : containment? (containmentTokens (memberObject name value).toList)
      = some [(name, value)] := by
    rw [containmentTokens, containment?, String.ofList_toList, memberObject, Json.parse_member]
    rfl
  rw [memberTruth, htest]
  simp

/-! ## §2. Conjunctions. -/

/-- The condition is a conjunction of predicates that all have the property. -/
inductive Expr.IsConjunctionOf (p : List Token → Prop) : Expr → Prop where
  | atom {ts : List Token} (h : p ts) : IsConjunctionOf p (.atom ts)
  | and {left right : Expr} (hl : IsConjunctionOf p left) (hr : IsConjunctionOf p right) :
      IsConjunctionOf p (.and left right)

variable {p : List Token → Prop} {e : Expr}

theorem Expr.IsConjunctionOf.eval_congr (h : e.IsConjunctionOf p) (hv : ∀ ts, p ts → v ts = w ts) :
    e.eval v = e.eval w := by
  induction h with
  | atom h => exact hv _ h
  | and _ _ ihl ihr => rw [Expr.eval, Expr.eval, ihl, ihr]

/-- A conjunction of true predicates is true. -/
theorem Expr.IsConjunctionOf.eval_yes (h : e.IsConjunctionOf p) : e.eval (fun _ => .yes) = .yes := by
  induction h with
  | atom _ => rfl
  | and _ _ ihl ihr => rw [Expr.eval, ihl, ihr, Truth.and]

/-- The tokens of a condition that can stand behind `AND` and tests no members. -/
structure IsPlainCondition (ts : List Token) : Prop where
  passes : Passes (Token.isKeyword "or") ts
  plain : (read ts).IsConjunctionOf fun us => containment? us = none

theorem IsPlainCondition.eval_memberTruth (h : IsPlainCondition ts)
    (element : String → Option String) : (read ts).eval (memberTruth element v) = (read ts).eval v :=
  h.plain.eval_congr fun us hus => by rw [memberTruth, hus]

/-! ## §3. Element searches as they are read. -/

/-- A search in the elements of arrays. -/
structure ElementQuery where
  array : List Token
  table : List Token
  /-- The condition on an element. -/
  condition : List Token
  deriving Repr, DecidableEq

/-- Reads a text, token by token. -/
def readText (text : String) (ts : List Token) : Option (List Token) :=
  if tokens text <+: ts then some (ts.drop (tokens text).length) else none

/-- Reads an element search, which must end with the tokens. -/
def readElements? (ts : List Token) : Option ElementQuery := do
  let ts ← readText "id in (select t.id from (select id as id, jsonb_array_elements(" ts
  let (array, ts) ← cutTop (· == .closing) 0 ts
  let ts ← readText "as c from" ts
  let (table, ts) ← cutTop (· == .closing) 0 ts
  let ts ← readText "as t where" ts
  let condition ← inside 0 ts
  return { array, table, condition }

/-- The truth of an element search for one element. -/
def ElementQuery.truth (q : ElementQuery) (element : String → Option String) (v : Assignment) :
    Truth :=
  (read q.condition).eval (memberTruth element v)

theorem readText_append (text : String) (ts : List Token) :
    readText text (tokens text ++ ts) = some ts := by
  rw [readText, if_pos (List.prefix_append _ _), List.drop_left]

/-- A closed text has no parenthesis that ends what stands around it. -/
theorem cutTop_closing {d e : Nat} (h : depthAfter d ts = some e) :
    cutTop (· == .closing) d ts = none := by
  induction ts generalizing d with
  | nil => rfl
  | cons t ts ih =>
    obtain ⟨d', hd, hrest⟩ := Option.bind_eq_some_iff.1 h
    have hstop : ¬ (d = 0 ∧ (t == .closing) = true) := by
      rintro ⟨rfl, ht⟩
      rw [beq_iff_eq] at ht
      subst ht
      cases hd
    rw [cutTop, if_neg hstop, Token.shift_of_depth? hd, ih hrest]
    rfl

theorem cutTop_closing_append (h : Closed ts) (us : List Token) :
    cutTop (· == .closing) 0 (ts ++ .closing :: us) = some (ts, us) := by
  rw [cutTop_append h (cutTop_closing h), cutTop, if_pos ⟨rfl, rfl⟩]
  simp

variable {array table condition : String}

/-! ## §4. Element searches as they are written. -/

/-- The literal of a member stands for its object. -/
theorem undouble_memberLiteral (name value : String) :
    undouble (memberLiteral name value).toList = some (memberObject name value).toList := by
  have hname := undouble_doubleQuotes (Json.quote name)
  have hvalue := undouble_doubleQuotes (Json.quote value)
  have hopen : undouble "\x7b".toList = some "\x7b".toList := by decide
  have hcolon : undouble ": ".toList = some ": ".toList := by decide
  have hclose : undouble "\x7d".toList = some "\x7d".toList := by decide
  simp only [memberLiteral, memberObject, String.toList_append]
  exact undouble_append_some (undouble_append_some (undouble_append_some
    (undouble_append_some hopen hname) hcolon) hvalue) hclose

/-- The tokens of an element search. -/
theorem tokens_elementSearch (ha : Balanced true array) (ht : Balanced true table)
    (hc : Balanced true condition) (name value : String) :
    tokens (elementSearch array table name value condition)
      = tokens "id in (select t.id from (select id as id, jsonb_array_elements("
        ++ (tokens array ++ .closing :: (tokens "as c from"
        ++ (tokens table ++ .closing :: (tokens "as t where"
        ++ ((containmentTokens (memberObject name value).toList
          ++ .word "and".toList :: tokens condition) ++ [.closing]))))) := by
  -- the parts from the last one to the first, each read apart from what follows it
  have hlast : tokens (condition ++ ")") = tokens condition ++ [.closing] :=
    tokens_append_closing hc.endsOutside rfl
  have hand : tokens (" and " ++ (condition ++ ")"))
      = .word "and".toList :: (tokens condition ++ [.closing]) := by
    rw [tokens_connector_append (by decide), hlast]
    rfl
  have hmember : tokens (literal (memberLiteral name value) ++ (" and " ++ (condition ++ ")")))
      = .quoted (memberObject name value).toList
        :: .word "and".toList :: (tokens condition ++ [.closing]) := by
    rw [tokens_quoted_append (undouble_memberLiteral name value) (by simp), hand]
  have hwhere : ∀ rest : String, tokens (") as t where t.c @> " ++ rest)
      = .closing :: (tokens "as t where" ++ ([.word ['t'], .symbol '.', .word ['c'], .symbol '@',
          .symbol '>'] ++ tokens rest)) := by
    intro rest
    rw [tokens_connector_append (by decide)]
    rfl
  have hfrom : ∀ rest : String, tokens (") as c from " ++ rest)
      = .closing :: (tokens "as c from" ++ tokens rest) := by
    intro rest
    rw [tokens_connector_append (by decide)]
    rfl
  have htext : elementSearch array table name value condition
      = "id in (select t.id from (select id as id, jsonb_array_elements(" ++ (array
        ++ (") as c from " ++ (table ++ (") as t where t.c @> "
        ++ (literal (memberLiteral name value) ++ (" and " ++ (condition ++ ")"))))))) := by
    unfold elementSearch
    simp only [String.append_assoc]
  rw [htext, tokens_connector_append (by decide), tokens_append_closing ha.endsOutside (by simp),
    hfrom, tokens_append_closing ht.endsOutside (by simp), hwhere, hmember]
  simp [containmentTokens]

/-- The search for a member and a condition. -/
def memberQuery (array table name value condition : String) : ElementQuery where
  array := tokens array
  table := tokens table
  condition := containmentTokens (memberObject name value).toList
    ++ .word "and".toList :: tokens condition

/-- An element search is read as what it was written from. -/
theorem readElements?_elementSearch (ha : Balanced true array) (ht : Balanced true table)
    (hc : Balanced true condition) (name value : String) :
    readElements? (tokens (elementSearch array table name value condition))
      = some (memberQuery array table name value condition) := by
  have hclosed : Closed (containmentTokens (memberObject name value).toList
      ++ .word "and".toList :: tokens condition) :=
    Closed.append rfl (closed_tokens hc)
  have hinside : inside 0 ((containmentTokens (memberObject name value).toList
      ++ .word "and".toList :: tokens condition) ++ [.closing])
        = some (containmentTokens (memberObject name value).toList
          ++ .word "and".toList :: tokens condition) := by
    rw [inside_skip hclosed]
    simp [inside]
  unfold readElements?
  rw [tokens_elementSearch ha ht hc]
  simp only [Option.bind_eq_bind, readText_append, Option.bind_some,
    cutTop_closing_append (closed_tokens ha), cutTop_closing_append (closed_tokens ht), hinside]
  rfl

/-- The condition of the search is the test for the member and the other
condition. -/
theorem read_memberQuery (hc : IsPlainCondition (tokens condition)) (name value : String) :
    read (memberQuery array table name value condition).condition
      = .and (.atom (containmentTokens (memberObject name value).toList))
        (read (tokens condition)) := by
  have hpasses : ∀ word ∈ ["or", "and"], Passes (Token.isKeyword word)
      (containmentTokens (memberObject name value).toList) := by
    intro word hword
    simp only [List.mem_cons, List.not_mem_nil, or_false] at hword
    rcases hword with rfl | rfl <;> exact ⟨rfl, rfl⟩
  have hatom : read (containmentTokens (memberObject name value).toList)
      = .atom (containmentTokens (memberObject name value).toList) :=
    read_of_atom (hpasses "or" (by decide)).uncut (hpasses "and" (by decide)).uncut rfl rfl
  rw [memberQuery, read_and_of_passes (by decide) (by decide) hpasses hc.passes, hatom]

/-- The search is true of an element just when the element holds the member and
the condition is true. -/
theorem truth_memberQuery (hc : IsPlainCondition (tokens condition)) (name value : String)
    (element : String → Option String) (v : Assignment) :
    (memberQuery array table name value condition).truth element v
      = (Truth.ofBool (element name == some value)).and (evalText v condition) := by
  rw [ElementQuery.truth, read_memberQuery hc, Expr.eval, Expr.eval, memberTruth_member,
    hc.eval_memberTruth]
  rfl

/-! ## §5. Members that a search requires. -/

/-- Every element of which the search is true holds the member. -/
def ElementQuery.Requires (q : ElementQuery) (name value : String) : Prop :=
  ∀ element v, q.truth element v = .yes → element name = some value

/-- A search for one member requires this member and no other. -/
theorem requires_memberQuery_iff (hc : IsPlainCondition (tokens condition))
    {name value other text : String} :
    (memberQuery array table name value condition).Requires other text ↔
      other = name ∧ text = value := by
  constructor
  · intro h
    -- an element with this member alone, and no other predicate that fails
    have hyes := h (fun n => if n = name then some value else none) (fun _ => .yes)
    have htruth : (memberQuery array table name value condition).truth
        (fun n => if n = name then some value else none) (fun _ => .yes) = .yes := by
      rw [truth_memberQuery hc, evalText, hc.plain.eval_yes]
      simp [Truth.ofBool, Truth.and]
    have hother := hyes htruth
    split at hother
    · rename_i hname
      exact ⟨hname, (Option.some.inj hother).symm⟩
    · cases hother
  · rintro ⟨rfl, rfl⟩ element v h
    rw [truth_memberQuery hc, Truth.and_eq_yes_iff, Truth.ofBool_eq_yes_iff] at h
    simpa using h.1

end CqlToSql.Sql
