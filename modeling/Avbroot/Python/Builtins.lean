/-
Module: Avbroot.Python.Builtins
Purpose: The Python semantics the modules share: an exception by its class, `xs[i]` on a list with
  negative indices and `IndexError`, and `range(start, stop)` over integers; and how to read a
  successful run of the `Except` monad that carries the exceptions, one step at a time.
Trusted boundary: none; the texts are CPython's.
Main exports: PyException, PyException.isValueError, pyGetItem, pyRange, except_bind_eq_ok,
  except_map_eq_ok
-/
import Mathlib.Data.List.Basic

namespace Avbroot

/-- A Python exception, by class: `ValueError` and its subclasses, `TypeError`, `IndexError`, or
another class by its name. -/
inductive PyException where
  | valueError (message : String)
  | typeError (message : String)
  | indexError (message : String)
  | other (name message : String)
deriving DecidableEq, Repr

/-- `except ValueError:` catches it. -/
def PyException.isValueError : PyException → Bool
  | .valueError _ => true
  | _ => false

/-- `xs[i]` on a Python list: a negative index counts from the end, and one out of range raises
`IndexError`. -/
def pyGetItem {α : Type} (xs : List α) (i : Int) : Except PyException α :=
  let j := if i < 0 then i + xs.length else i
  if 0 ≤ j then
    match xs[j.toNat]? with
    | some x => .ok x
    | none => .error (.indexError "list index out of range")
  else .error (.indexError "list index out of range")

/-- `range(start, stop)`. -/
def pyRange (start stop : Int) : List Int :=
  (List.range (stop - start).toNat).map fun k : Nat => start + k

/-! ### Reading a run of the `Except` monad -/

theorem except_bind_eq_ok {ε α β : Type} (x : Except ε α) (f : α → Except ε β) (b : β) :
    x >>= f = .ok b ↔ ∃ a, x = .ok a ∧ f a = .ok b := by
  cases x <;> simp [bind, Except.bind]

@[simp] theorem except_pure_eq_ok {ε α : Type} (a b : α) :
    (pure a : Except ε α) = .ok b ↔ a = b := by
  simp [pure, Except.pure]

theorem except_map_eq_ok {ε α β : Type} (f : α → β) (x : Except ε α) (b : β) :
    f <$> x = .ok b ↔ ∃ a, x = .ok a ∧ f a = b := by
  cases x <;> simp [Functor.map, Except.map]

end Avbroot
