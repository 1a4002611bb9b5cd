import StagedLowering.Error

/-!
Settings of a lowering and the conditions a pipeline asks of them.
-/
namespace StagedLowering

/-- The key that delegates are looked up under unless a rule names another. -/
def defaultDelegateKey : String := "transformer"

structure Config where
  /-- Called for a regex literal without the case-insensitive flag. -/
  regexConstructor : String := "Regex.new"
  /-- Called for a regex literal with it. -/
  regexCaseInsensitiveConstructor : String := "Regex.new_case_insensitive"
  caseInsensitiveFlag : Char := 'i'
  /-- The context key of the emitter that leaves and calls are delegated to. -/
  delegateKey : String := defaultDelegateKey
  /-- How deeply subexpressions may nest. -/
  maxDepth : UInt64 := 256
  collectStats : Bool := true
  deriving DecidableEq, Repr, Inhabited

namespace Config

/-- The first condition that fails decides the error. -/
def validate (c : Config) : Except LoweringError Unit :=
  if c.regexConstructor.isEmpty || c.regexCaseInsensitiveConstructor.isEmpty then
    .error (.config "regex constructor names must not be empty")
  else if c.delegateKey.isEmpty then .error (.config "delegate_key must not be empty")
  else if c.maxDepth = 0 then .error (.config "max_lowering_depth must be at least 1")
  else .ok ()

/-- The constructor for a regex with these flags. -/
def constructorOf (c : Config) (flags : String) : String :=
  if flags.toList.contains c.caseInsensitiveFlag then c.regexCaseInsensitiveConstructor
  else c.regexConstructor

end Config

end StagedLowering
