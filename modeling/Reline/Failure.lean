/-
  Reline.Failure

  Failures as they are reported: what was attempted, and what it failed for,
  from the outermost attempt to the innermost cause.
-/

namespace Reline

/-- A failure as a chain of texts, each caused by the next. -/
structure Failure where
  /-- What was attempted last, or the fault itself. -/
  outermost : String
  /-- The causes, the nearest first. -/
  causes : List String
deriving DecidableEq, Repr, Inhabited

namespace Failure

/-- A failure without a further cause. -/
def ofText (text : String) : Failure := ⟨text, []⟩

/-- The failure of an attempt that another failure caused. -/
def during (attempt : String) (cause : Failure) : Failure :=
  ⟨attempt, cause.outermost :: cause.causes⟩

/-- All texts on one line. -/
def line (failure : Failure) : String :=
  ": ".intercalate (failure.outermost :: failure.causes)

/-- A text with every line but the first indented. -/
def indentLines (indent text : String) : String :=
  ("\n" ++ indent).intercalate (text.splitOn "\n")

/-- The causes on lines of their own; several are numbered. -/
def causeLines (failure : Failure) : List String :=
  match failure.causes with
  | [cause] => ["    " ++ indentLines "    " cause]
  | causes => causes.mapIdx fun i cause => s!"    {i}: " ++ indentLines "       " cause

/-- The report of a program that ends with this failure. -/
def report (failure : Failure) : List String :=
  let heading := "Error: " ++ failure.outermost
  match failure.causeLines with
  | [] => [heading]
  | lines => heading :: "" :: "Caused by:" :: lines

end Failure

end Reline
