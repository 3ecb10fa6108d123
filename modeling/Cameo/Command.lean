import Cameo.Library.Shell

/-!
# Resolved commands

The command an endpoint runs, and the shell rendering shown for it.
-/

namespace Cameo

open Library.Shell (apostrophe)

/-- `CommandSpec`. -/
structure CommandSpec where
  program : String
  args : List String
  env : List (String × String)
  secretEnv : List (String × String)

/-- The characters `shell_quote` leaves unquoted. -/
def isShellSafe (c : Char) : Bool :=
  ('a' ≤ c && c ≤ 'z') || ('A' ≤ c && c ≤ 'Z') || ('0' ≤ c && c ≤ '9') ||
    "-_./:=@,+".toList.contains c

/-- `shell_quote`: one token for POSIX `sh`. -/
def shellQuote (s : String) : String :=
  if s ≠ "" ∧ s.toList.all isShellSafe then s
  else
    let quoted := s.toList.flatMap fun c ↦
      if c = apostrophe then [apostrophe, '\\', apostrophe, apostrophe] else [c]
    "'" ++ String.ofList quoted ++ "'"

/-- `CommandSpec::display`. -/
def CommandSpec.display (spec : CommandSpec) : String :=
  String.join (spec.env.map fun pair ↦ pair.1 ++ "=" ++ shellQuote pair.2 ++ " ") ++
    String.join (spec.secretEnv.map fun pair ↦ pair.1 ++ "='<redacted>' ") ++
    shellQuote spec.program ++ String.join (spec.args.map fun arg ↦ " " ++ shellQuote arg)

end Cameo
