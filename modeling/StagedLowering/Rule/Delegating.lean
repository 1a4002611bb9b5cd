import StagedLowering.Config
import StagedLowering.Rule.Basic
import StagedLowering.Text.Shown

/-!
Rules that hand the nodes they claim to a method of a delegate found in the context.
-/
namespace StagedLowering

/-- Which nodes are handed over, to which method of which type of delegate, and the key under which
the context has the delegate. -/
structure Delegation (ω δ D : Type) where
  type : DelegateType ω δ D
  claims : KindSet
  methodName : String
  method : D → Node → Act ω Node
  key : String := defaultDelegateKey

namespace Delegation

variable {ω δ D : Type}

/-- The rule named `name` that carries out the delegation. The delegate's answer always replaces
the node, even when it is the same node. -/
def rule (d : Delegation ω δ D) (name : String) : Rule ω δ where
  name := name
  description := "Forwards claimed nodes to a method on a context-supplied delegate"
  requires := [.delegate d.key]
  inert := d.claims.isEmpty
  applies n _ := d.claims.claims n
  apply n c := do
    let delegate ← Act.ofExcept (c.delegate d.type d.key)
    let replacement ← d.method delegate n
    pure (.replaced replacement)

/-- The delegation, for people to read. -/
def listing (d : Delegation ω δ D) : String :=
  "DelegateDescriptor \x7b claims: KindSet \x7b kinds: \x7b" ++
    ", ".intercalate (d.claims.kinds.map NodeKind.name) ++ "\x7d \x7d, method_name: " ++
    Text.shown d.methodName ++ ", key: " ++ Text.shown d.key ++ " \x7d"

end Delegation

/-- The collaborators of a context, for people to read. -/
def Context.listing {ω δ : Type} (c : Context ω δ) : String :=
  "LoweringContext \x7b collaborators: " ++ Text.shownList c.present ++ " \x7d"

end StagedLowering
