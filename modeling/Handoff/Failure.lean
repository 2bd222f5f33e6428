namespace Handoff

/-- Why an operation failed: what was being done, outermost first, down to the root cause. -/
structure Failure where
  outer : String
  causes : List String := []
  deriving DecidableEq

namespace Failure

/-- The whole chain on one line. -/
def message (f : Failure) : String :=
  ": ".intercalate (f.outer :: f.causes)

/-- Says what was being done when `f` happened. -/
def context (what : String) (f : Failure) : Failure :=
  ⟨what, f.outer :: f.causes⟩

/-- The lines after the first, each moved right. -/
def indentRest (margin : String) (text : String) : String :=
  ("\n" ++ margin).intercalate (text.splitOn "\n")

/-- One cause per line; several are numbered. -/
def causeLines : List String → List String
  | [] => []
  | [cause] => ["    " ++ indentRest "    " cause]
  | causes => causes.zipIdx.map fun (cause, i) =>
      let number := toString i
      String.ofList (List.replicate (5 - number.length) ' ') ++ number ++ ": "
        ++ indentRest "       " cause

/-- What a program that ends with this failure prints. -/
def report (f : Failure) : String :=
  "Error: " ++ f.outer ++
    (if f.causes = [] then "" else "\n\nCaused by:\n" ++ "\n".intercalate (causeLines f.causes)) ++
    "\n"

end Failure
end Handoff
