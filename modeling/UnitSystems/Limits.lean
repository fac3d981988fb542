/-!
# Limits on the input

Generated exponents are chains of successors, so a large root nests types deeply and a consumer's
compiler reaches its recursion limit. The defaults stay well inside what compilers accept.
-/

namespace UnitSystems

/-- Limits on definitions and on the files that hold them. -/
structure Limits where
  /-- Bytes of a definition file. -/
  maxDefinitionBytes : Nat := 1024 * 1024
  /-- Base units of one system. -/
  maxBaseUnits : Nat := 32
  /-- The allowed root of one system. -/
  maxAllowedRoot : UInt32 := 32
  deriving DecidableEq, Repr

end UnitSystems
