import StagedLowering.Data.OrderedMap
import StagedLowering.Error
import StagedLowering.Library.Function

/-!
The registry of library modules. A declaration is stored under its module and name, and only what
these two do not tell is kept there, so what is looked up always carries the names it was found
under. Modules and the functions of a module stand in the order of their first definition; a later
definition of the same function takes the earlier one's place.
-/
namespace StagedLowering

/-- What a registry keeps of a function beside its module and name. -/
structure Signature where
  params : List Ty
  returns : Ty
  exported : Bool
  deriving Inhabited

structure Registry where
  modules : OrderedMap String (OrderedMap String Signature)

/-- The outcome of an import: what was found, and the names that were not. -/
structure Resolution where
  resolved : List FunctionDecl
  missing : List String

namespace Registry

def empty : Registry := ⟨.empty⟩

/-- Make `module` exist, with no functions if it is new. -/
def addModule (r : Registry) (module : String) : Registry := ⟨r.modules.ensure module .empty⟩

def define (r : Registry) (d : FunctionDecl) : Registry :=
  ⟨r.modules.modify d.module .empty (·.insert d.name ⟨d.params, d.returns, d.exported⟩)⟩

def defineAll (r : Registry) (ds : List FunctionDecl) : Registry := ds.foldl define r

/-- The registry that a listing of modules describes. The enclosing module decides where a function
belongs, whatever module its own declaration names; a module with no functions exists too. -/
def ofListing (listing : OrderedMap String (List FunctionDecl)) : Registry :=
  listing.entries.foldl
    (fun r (module, ds) => (r.addModule module).defineAll (ds.map ({ · with module := module })))
    empty

def moduleNames (r : Registry) : List String := r.modules.keys

def hasModule (r : Registry) (module : String) : Bool := r.modules.contains module

/-- The declaration that `sig` abbreviates under a module and a name. -/
def declOf (module name : String) (sig : Signature) : FunctionDecl :=
  ⟨name, module, sig.params, sig.returns, sig.exported⟩

/-- The functions of a module in order; `none` for an unknown module. -/
def functions? (r : Registry) (module : String) : Option (List FunctionDecl) :=
  (r.modules.get? module).map fun fs => fs.entries.map fun e => declOf module e.1 e.2

def lookup (r : Registry) (module name : String) : Option FunctionDecl :=
  ((r.modules.get? module).bind (·.get? name)).map (declOf module name)

/-- The elements of a list in the order of their first occurrence. -/
def distinct (names : List String) : List String :=
  names.foldl (fun seen n => if n ∈ seen then seen else seen ++ [n]) []

/-- The exported function of that name. -/
def exported? (r : Registry) (module name : String) : Option FunctionDecl :=
  (r.lookup module name).filter (·.exported)

/-- Resolve an import. All exported functions come in definition order; named ones in the order in
which they are first asked for. -/
def resolve (r : Registry) (module : String) (selection : ImportSelection) :
    Except LoweringError Resolution :=
  match r.functions? module with
  | none => .error (.unknownModule module)
  | some fs =>
    match selection with
    | .all => .ok ⟨fs.filter (·.exported), []⟩
    | .items names =>
      let names := distinct names
      .ok ⟨names.filterMap (r.exported? module),
        names.filter fun n => (r.exported? module n).isNone⟩

/-- The modules that are there without loading any. -/
def builtins : Registry :=
  empty.defineAll
    [ ⟨"println", "IO", [.string], .nil, true⟩,
      ⟨"print", "IO", [.string], .nil, true⟩,
      ⟨"read_line", "IO", [], .string, true⟩,
      ⟨"flush_buffers", "IO", [], .nil, false⟩,
      ⟨"length", "Str", [.string], .int, true⟩,
      ⟨"upcase", "Str", [.string], .string, true⟩,
      ⟨"downcase", "Str", [.string], .string, true⟩,
      ⟨"split", "Str", [.string, .string], .named "List", true⟩,
      ⟨"abs", "Math", [.int], .int, true⟩,
      ⟨"max", "Math", [.int, .int], .int, true⟩,
      ⟨"min", "Math", [.int, .int], .int, true⟩,
      ⟨"sqrt", "Math", [.float], .float, true⟩,
      ⟨"matches", "Regex", [.regex, .string], .bool, true⟩,
      ⟨"replace", "Regex", [.regex, .string, .string], .string, true⟩ ]

end Registry

end StagedLowering
