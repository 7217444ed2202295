/-
  CqlToSql.Proofs.Logged
  ──────────────────────
  The results of computations that keep a log.  Records do not decide
  results, so a chain of computations succeeds just when each of them does on
  the result of the one before, and it fails as the first of them that does.
-/
import CqlToSql.Logged

namespace CqlToSql.Logged

variable {α β : Type}

@[simp] theorem result_ofExcept (r : Except Fault α) : (ofExcept r).result = r := rfl

@[simp] theorem result_warnIf (condition : Bool) (message : String) :
    (warnIf condition message).result = .ok () := by
  unfold warnIf
  split <;> rfl

/-- A fault ends a chain, and what was written before it stays. -/
theorem bind_error (records : List Record) (fault : Fault) (f : α → Logged β) :
    (⟨records, .error fault⟩ >>= f : Logged β) = ⟨records, .error fault⟩ := rfl

/-- Records are written in the order of the chain. -/
theorem bind_ok (records : List Record) (a : α) (f : α → Logged β) :
    (⟨records, .ok a⟩ >>= f : Logged β) = ⟨records ++ (f a).records, (f a).result⟩ := rfl

/-- A chain of computations depends on the second one only at the results of the
first. -/
theorem bind_congr {x : Logged α} {f g : α → Logged β}
    (h : ∀ a, x.result = .ok a → f a = g a) : x >>= f = x >>= g := by
  obtain ⟨records, result⟩ := x
  cases result with
  | error fault => rfl
  | ok a => rw [bind_ok, bind_ok, h a rfl]

/-- The result of a chain is that of the second computation, if the first
succeeds. -/
theorem result_bind (x : Logged α) (f : α → Logged β) :
    (x >>= f).result = x.result.bind fun a => (f a).result := by
  show (andThen x f).result = _
  unfold andThen
  cases x.result <;> rfl

theorem result_bind_ok {x : Logged α} {a : α} (h : x.result = .ok a) (f : α → Logged β) :
    (x >>= f).result = (f a).result := by
  rw [result_bind, h]
  rfl

/-- A record that is written first changes no result. -/
@[simp] theorem result_write_bind (level : Level) (message : String) (f : Unit → Logged β) :
    (write level message >>= f).result = (f ()).result := rfl

@[simp] theorem result_warnIf_bind (condition : Bool) (message : String) (f : Unit → Logged β) :
    (warnIf condition message >>= f).result = (f ()).result :=
  result_bind_ok (result_warnIf condition message) f

/-- A chain succeeds just when both computations do. -/
theorem result_bind_eq_ok_iff {x : Logged α} {f : α → Logged β} {b : β} :
    (x >>= f).result = .ok b ↔ ∃ a, x.result = .ok a ∧ (f a).result = .ok b := by
  rw [result_bind]
  cases x.result with
  | error fault => simp [Except.bind]
  | ok a => simp [Except.bind]

/-- Whether a computation succeeds with a given result can be computed. -/
theorem result_eq_ok_iff {x : Logged α} {a : α} :
    x.result = .ok a ↔ x.result.toOption = some a := by
  cases x.result <;> simp [Except.toOption]

/-- The fault that a computation ends in, if it does. -/
def fault? (x : Logged α) : Option Fault :=
  match x.result with
  | .error fault => some fault
  | .ok _ => none

/-- Whether a computation ends in a given fault can be computed. -/
theorem result_eq_error_iff {x : Logged α} {fault : Fault} :
    x.result = .error fault ↔ x.fault? = some fault := by
  unfold fault?
  cases x.result <;> simp

end CqlToSql.Logged

namespace CqlToSql

variable {α β : Type} {P Q : Fault → Prop} {r r' : Except Fault α}

/-- A mapped result succeeds just when the result does. -/
theorem map_eq_ok_iff {f : α → β} {b : β} : r.map f = .ok b ↔ ∃ a, r = .ok a ∧ f a = b := by
  cases r <;> simp [Except.map]

/-- The result has no faults but those of `P`. -/
def FailsOnly (P : Fault → Prop) (r : Except Fault α) : Prop := ∀ fault, r = .error fault → P fault

@[simp] theorem failsOnly_ok (a : α) : FailsOnly P (.ok a : Except Fault α) := by
  intro fault h
  cases h

@[simp] theorem failsOnly_error_iff {fault : Fault} :
    FailsOnly P (.error fault : Except Fault α) ↔ P fault := by
  simp [FailsOnly]

theorem FailsOnly.mono (h : FailsOnly P r) (hPQ : ∀ fault, P fault → Q fault) : FailsOnly Q r :=
  fun fault hfault => hPQ fault (h fault hfault)

theorem FailsOnly.map (h : FailsOnly P r) (f : α → β) : FailsOnly P (r.map f) := by
  cases r with
  | error fault => exact failsOnly_error_iff.2 (failsOnly_error_iff.1 h)
  | ok a => exact failsOnly_ok (f a)

theorem FailsOnly.ite {c : Prop} [Decidable c] (h : FailsOnly P r) (h' : FailsOnly P r') :
    FailsOnly P (if c then r else r') := by
  split
  · exact h
  · exact h'

/-- A chain has the faults of its two computations. -/
theorem Logged.failsOnly_bind {x : Logged α} {f : α → Logged β} (hx : FailsOnly P x.result)
    (hf : ∀ a, x.result = .ok a → FailsOnly P (f a).result) : FailsOnly P (x >>= f).result := by
  rw [Logged.result_bind]
  cases hr : x.result with
  | error fault => exact failsOnly_error_iff.2 (hx fault hr)
  | ok a => exact hf a hr

end CqlToSql
