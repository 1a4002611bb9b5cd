import StagedLowering.Tree.Source
import StagedLowering.Tree.HighIR
import StagedLowering.Tree.Target

/-!
Nodes of the three families under one type, their kinds, and sets of kinds. A set keeps its kinds
in the order of `NodeKind.all`, so sets with the same members are equal.
-/
namespace StagedLowering

inductive Family where
  | source | high | target
  deriving DecidableEq, Repr

/-- The name under which trees of a family are written. -/
def Family.name : Family → String
  | .source => "Source"
  | .high => "Hir"
  | .target => "Target"

inductive NodeKind where
  | sourceNumber | sourceString | sourceBoolean | sourceIdentifier | sourceRegex
  | sourceBinary | sourceCall | sourceMatch | sourceImport
  | highLiteral | highIdentifier | highBinary | highRegex | highCall | highMatch | highImport
  | targetIdentifier | targetNumber | targetString | targetBoolean | targetNil
  | targetBinary | targetCall
  deriving DecidableEq, Repr, Inhabited

namespace NodeKind

/-- Every kind, in the order in which sets list them. -/
def all : List NodeKind :=
  [.sourceNumber, .sourceString, .sourceBoolean, .sourceIdentifier, .sourceRegex,
   .sourceBinary, .sourceCall, .sourceMatch, .sourceImport,
   .highLiteral, .highIdentifier, .highBinary, .highRegex, .highCall, .highMatch, .highImport,
   .targetIdentifier, .targetNumber, .targetString, .targetBoolean, .targetNil,
   .targetBinary, .targetCall]

theorem mem_all (k : NodeKind) : k ∈ all := by cases k <;> decide

def family : NodeKind → Family
  | .sourceNumber | .sourceString | .sourceBoolean | .sourceIdentifier | .sourceRegex
  | .sourceBinary | .sourceCall | .sourceMatch | .sourceImport => .source
  | .highLiteral | .highIdentifier | .highBinary | .highRegex | .highCall | .highMatch
  | .highImport => .high
  | .targetIdentifier | .targetNumber | .targetString | .targetBoolean | .targetNil
  | .targetBinary | .targetCall => .target

/-- The words messages use for a kind. -/
def text : NodeKind → String
  | .sourceNumber => "source number"
  | .sourceString => "source string"
  | .sourceBoolean => "source boolean"
  | .sourceIdentifier => "source identifier"
  | .sourceRegex => "source regex"
  | .sourceBinary => "source binary expression"
  | .sourceCall => "source call"
  | .sourceMatch => "source match expression"
  | .sourceImport => "source import"
  | .highLiteral => "HighIR literal"
  | .highIdentifier => "HighIR identifier"
  | .highBinary => "HighIR binary expression"
  | .highRegex => "HighIR regex literal"
  | .highCall => "HighIR call"
  | .highMatch => "HighIR match expression"
  | .highImport => "HighIR import"
  | .targetIdentifier => "target identifier"
  | .targetNumber => "target number"
  | .targetString => "target string literal"
  | .targetBoolean => "target boolean"
  | .targetNil => "target nil"
  | .targetBinary => "target binary expression"
  | .targetCall => "target call"

/-- The short name of a kind, as listings of sets show it. -/
def name : NodeKind → String
  | .sourceNumber => "SourceNumber"
  | .sourceString => "SourceString"
  | .sourceBoolean => "SourceBoolean"
  | .sourceIdentifier => "SourceIdentifier"
  | .sourceRegex => "SourceRegex"
  | .sourceBinary => "SourceBinary"
  | .sourceCall => "SourceCall"
  | .sourceMatch => "SourceMatch"
  | .sourceImport => "SourceImport"
  | .highLiteral => "HirLiteral"
  | .highIdentifier => "HirIdentifier"
  | .highBinary => "HirBinary"
  | .highRegex => "HirRegex"
  | .highCall => "HirCall"
  | .highMatch => "HirMatch"
  | .highImport => "HirImport"
  | .targetIdentifier => "TargetIdentifier"
  | .targetNumber => "TargetNumber"
  | .targetString => "TargetString"
  | .targetBoolean => "TargetBoolean"
  | .targetNil => "TargetNil"
  | .targetBinary => "TargetBinary"
  | .targetCall => "TargetCall"

def ofName? (name : String) : Option NodeKind := all.find? (·.name == name)

end NodeKind

def Source.kind : Source → NodeKind
  | .number _ => .sourceNumber
  | .string _ => .sourceString
  | .boolean _ => .sourceBoolean
  | .identifier _ => .sourceIdentifier
  | .regex _ _ => .sourceRegex
  | .binary _ _ _ => .sourceBinary
  | .call _ _ => .sourceCall
  | .matching _ _ => .sourceMatch
  | .importing _ => .sourceImport

def HighIR.kind : HighIR → NodeKind
  | .literal _ => .highLiteral
  | .identifier _ _ => .highIdentifier
  | .binary _ _ _ _ => .highBinary
  | .regex _ _ => .highRegex
  | .call _ _ _ => .highCall
  | .matching _ _ _ => .highMatch
  | .importing _ _ => .highImport

def Target.kind : Target → NodeKind
  | .identifier _ => .targetIdentifier
  | .number _ => .targetNumber
  | .string _ => .targetString
  | .boolean _ => .targetBoolean
  | .nil => .targetNil
  | .binary _ _ _ _ => .targetBinary
  | .call _ _ => .targetCall

/-- A tree of any family: what rules take and give. -/
inductive Node where
  | source (tree : Source)
  | high (tree : HighIR)
  | target (tree : Target)
  deriving Inhabited

namespace Node

def family : Node → Family
  | .source _ => .source
  | .high _ => .high
  | .target _ => .target

def kind : Node → NodeKind
  | .source tree => tree.kind
  | .high tree => tree.kind
  | .target tree => tree.kind

def source? : Node → Option Source
  | .source tree => some tree
  | _ => none

def high? : Node → Option HighIR
  | .high tree => some tree
  | _ => none

def target? : Node → Option Target
  | .target tree => some tree
  | _ => none

theorem family_kind (n : Node) : n.kind.family = n.family := by
  cases n with
  | source t => cases t <;> rfl
  | high t => cases t <;> rfl
  | target t => cases t <;> rfl

end Node

/-- A set of kinds, listed in the order of `NodeKind.all`. -/
structure KindSet where
  kinds : List NodeKind
  listed : kinds = NodeKind.all.filter (· ∈ kinds)

namespace KindSet

def ofList (ks : List NodeKind) : KindSet where
  kinds := NodeKind.all.filter (· ∈ ks)
  listed := by
    apply List.filter_congr
    intro k hk
    simp [hk]

instance : DecidableEq KindSet := fun a b =>
  if h : a.kinds = b.kinds then
    isTrue (by cases a; cases b; cases h; rfl)
  else isFalse fun e => h (e ▸ rfl)

def empty : KindSet := ofList []

def isEmpty (s : KindSet) : Bool := s.kinds.isEmpty

def contains (s : KindSet) (k : NodeKind) : Bool := k ∈ s.kinds

/-- Whether the set claims the node. -/
def claims (s : KindSet) (n : Node) : Bool := s.contains n.kind

@[simp] theorem mem_kinds_ofList (ks : List NodeKind) (k : NodeKind) :
    k ∈ (ofList ks).kinds ↔ k ∈ ks := by
  simp [ofList, NodeKind.mem_all]

end KindSet

end StagedLowering
