/-
  CqlToSql.Logged
  ───────────────
  **Computations that keep a log.**  A computation has a result, which may be
  a fault, and the records it wrote on the way; the records written before a
  fault stay.

      (x >>= f)  writes what `x` writes, then, if `x` succeeds, what `f` writes.
-/
import CqlToSql.Fault

namespace CqlToSql

/-- How important a record is. -/
inductive Level where
  | warn
  | info
  | debug
  deriving Repr, DecidableEq

/-- A log record. -/
structure Record where
  level : Level
  message : String
  deriving Repr, DecidableEq

/-- A result together with the records written on the way to it. -/
structure Logged (α : Type) where
  records : List Record
  result : Except Fault α

namespace Logged

/-- A result that nothing was written for. -/
def ofExcept {α : Type} (result : Except Fault α) : Logged α := ⟨[], result⟩

/-- One computation after another. -/
def andThen {α β : Type} (x : Logged α) (f : α → Logged β) : Logged β :=
  match x.result with
  | .ok a => ⟨x.records ++ (f a).records, (f a).result⟩
  | .error fault => ⟨x.records, .error fault⟩

instance : Monad Logged where
  pure a := ⟨[], .ok a⟩
  bind := andThen

/-- A fault. -/
def fail {α : Type} (fault : Fault) : Logged α := ⟨[], .error fault⟩

/-- Writes a record. -/
def write (level : Level) (message : String) : Logged Unit := ⟨[⟨level, message⟩], .ok ()⟩

/-- Writes a warning if the condition holds. -/
def warnIf (condition : Bool) (message : String) : Logged Unit :=
  if condition then write .warn message else pure ()

instance : LawfulMonad Logged := LawfulMonad.mk' Logged
  (fun x => by
    obtain ⟨records, result⟩ := x
    cases result <;> simp [Functor.map, andThen])
  (fun a f => by simp [bind, pure, andThen])
  (fun x f g => by
    obtain ⟨records, result⟩ := x
    cases result with
    | error fault => simp [bind, andThen]
    | ok a =>
      simp only [bind, andThen]
      cases (f a).result <;> simp)

end Logged

end CqlToSql
