/-
The catalogue: what the path of an engine can name.

A path names an attribute of a module. The catalogue lists the modules
and their attributes, and says of each attribute two things: how it is
described when a path is resolved to it, and what becomes of it when it
is called to make an engine, that is, with a memory as its only argument.
Few attributes make an engine; the interface of engines itself makes one
that does nothing, some make a thing that is no engine, some refuse the
memory with a fault of their own, and most cannot be called that way at
all.
-/
import SatSession.Engine.Scripted
import SatSession.Session

namespace SatSession.Catalogue

/-- How an attribute is described. -/
inductive Description where
  /-- A class, by the module that defines it and its name. -/
  | classOf (home name : String)
  /-- A whole number. -/
  | number (n : Int)
  /-- Anything else, by the name of its kind. -/
  | other (kind : String)
  deriving DecidableEq, Repr

/-- What calling an attribute with a memory comes to. -/
inductive Response where
  /-- The engine with tables. -/
  | tables
  /-- A scripted engine. -/
  | scripted (script : Script)
  /-- An engine that does nothing. -/
  | blank
  /-- A thing without the methods of an engine. -/
  | methodless
  /-- A cursor, with the memory in the place of a session. -/
  | cursor
  /-- A fault. -/
  | fails (f : Fault)
  /-- The memory is looked up among codes that go by a name. -/
  | asCode (codes : String)
  /-- The memory is taken for the clause set of a new session. -/
  | asClauses

/-- An attribute. -/
structure Attribute where
  description : Description
  response : Response

/-- A module. -/
structure Module where
  /-- Whether further modules can lie inside it. -/
  isPackage : Bool
  attributes : List (String × Attribute)

/-- The name under which the kind of a memory is reported. -/
def memoryKind : String := "HostAllocator"

-- =================================================== kinds of attribute

/-- A class that refuses to be called with a memory. -/
def refusing (home name : String) : String × Attribute :=
  (name, ⟨.classOf home name, .fails .wrongKind⟩)

/-- A class whose objects lack the methods of an engine. -/
def inert (home name : String) : String × Attribute :=
  (name, ⟨.classOf home name, .methodless⟩)

/-- A class of engines or one with a response of its own. -/
def making (home name : String) (response : Response) : String × Attribute :=
  (name, ⟨.classOf home name, response⟩)

/-- A whole number. -/
def number (name : String) (n : Int) : String × Attribute :=
  (name, ⟨.number n, .fails .wrongKind⟩)

/-- A thing that cannot be called with a memory. -/
def thing (name kind : String) : String × Attribute :=
  (name, ⟨.other kind, .fails .wrongKind⟩)

/-- A function with its response. -/
def function (name : String) (response : Response) : String × Attribute :=
  (name, ⟨.other "function", response⟩)

/-- An inner or imported module. -/
def module_ (name : String) : String × Attribute := thing name "module"

-- ============================================== attributes of any module

/-- What every module has by its nature. -/
def natural : List (String × Attribute) :=
  [("__class__", ⟨.classOf "builtins" "module", .fails .wrongKind⟩),
    thing "__dict__" "dict", thing "__annotations__" "dict"]
  ++ ["__eq__", "__ne__", "__lt__", "__le__", "__gt__", "__ge__"].map
    (fun name => (name, ⟨.other "method-wrapper", .methodless⟩))
  ++ ["__init__", "__repr__", "__str__", "__hash__", "__getattribute__",
      "__setattr__", "__delattr__"].map (thing · "method-wrapper")
  ++ [("__subclasshook__",
      ⟨.other "builtin_function_or_method", .methodless⟩)]
  ++ ["__dir__", "__format__", "__getstate__", "__init_subclass__",
      "__new__", "__reduce__", "__reduce_ex__", "__sizeof__"].map
    (thing · "builtin_function_or_method")

/-- What a module read from a file says about itself. -/
def fromFile : List (String × Attribute) :=
  [thing "__name__" "str", thing "__doc__" "str",
    thing "__package__" "str", thing "__loader__" "SourceFileLoader",
    thing "__spec__" "ModuleSpec", thing "__file__" "str",
    thing "__cached__" "str", thing "__builtins__" "dict"]

/-- What a package without a file of its own says about itself. -/
def fromFolder : List (String × Attribute) :=
  [thing "__name__" "str", thing "__doc__" "NoneType",
    thing "__package__" "str", thing "__loader__" "NamespaceLoader",
    thing "__spec__" "ModuleSpec", thing "__file__" "NoneType",
    thing "__path__" "_NamespacePath"]

/-- A module with a file. -/
def plain (attributes : List (String × Attribute)) : Module :=
  ⟨false, attributes ++ fromFile ++ natural⟩

/-- A package with a file. -/
def package (attributes : List (String × Attribute)) : Module :=
  ⟨true, attributes ++ thing "__path__" "list" :: fromFile ++ natural⟩

/-- A package without a file. -/
def folder (attributes : List (String × Attribute)) : Module :=
  ⟨true, attributes ++ fromFolder ++ natural⟩

-- ===================================================== shared attributes

def errorsHome : String := "zuspec.be.sat.errors"

def allocatorHome : String := "zuspec.be.sat.allocator"

def sessionHome : String := "zuspec.be.sat.session"

def cursorHome : String := "zuspec.be.sat.cursor"

def baseHome : String := "zuspec.be.sat.engine.base"

def resultHome : String := "zuspec.be.sat.engine.result"

def tableEngineHome : String := "zuspec.be.sat.engine.z3_engine"

/-- The classes of errors. -/
def errorClass (c : ErrorClass) : String × Attribute :=
  inert errorsHome c.name

def allocatorInterface : String × Attribute :=
  refusing allocatorHome "Allocator"

def hostAllocator : String × Attribute := inert allocatorHome memoryKind

def engineInterface : String × Attribute :=
  making baseHome "SatEngine" .blank

def outcomeClass : String × Attribute :=
  making resultHome Outcome.codesName (.asCode Outcome.codesName)

def codesClass : String × Attribute :=
  making "enum" "Enum" (.asCode "Enum")

def configClass : String × Attribute :=
  making sessionHome "SolverConfig" (.fails (.settingKind .vars memoryKind))

def sessionClass : String × Attribute :=
  refusing sessionHome "SolverSession"

def cursorClass : String × Attribute :=
  making cursorHome "SolutionIterator" .cursor

def createSession : String × Attribute :=
  function "create_session" .asClauses

def solveFunction : String × Attribute := function "solve" .asClauses

def itersolveFunction : String × Attribute :=
  function "itersolve" .asClauses

def resolveFunction : String × Attribute :=
  function "resolve_engine" (.fails .missingOperation)

def decodeFunction : String × Attribute :=
  function "decode_solution" (.fails .missingOperation)

def blockFunction : String × Attribute :=
  function "block_solution" (.fails .missingOperation)

def ingestFunction : String × Attribute :=
  function "ingest_clauses" (.fails .wrongKind)

def factoryAlias : String × Attribute :=
  thing "EngineFactory" "_CallableGenericAlias"

def codes : List (String × Attribute) :=
  [number "SATISFIABLE" 10, number "UNSATISFIABLE" 20, number "UNKNOWN" 0]

def typingAny : String × Attribute := refusing "typing" "Any"

def typingOptional : String × Attribute := thing "Optional" "_SpecialForm"

def typingUnion : String × Attribute := thing "Union" "_SpecialForm"

def typingList : String × Attribute := thing "List" "_SpecialGenericAlias"

def typingProtocol : String × Attribute := refusing "typing" "Protocol"

def typingTextStream : String × Attribute := refusing "typing" "TextIO"

def integralClass : String × Attribute := refusing "numbers" "Integral"

def searchError : String × Attribute := inert "z3.z3types" "Z3Exception"

def loggerThing : String × Attribute := thing "logger" "Logger"

/-- The names that the main package offers, in the order in which it
declares them. -/
def exports : List String :=
  ["solve", "itersolve", "UNSAT", "UNKNOWN", "Allocator", "HostAllocator",
    "SolutionIterator", "SatEngine", "SatResult", "resolve_engine",
    "SatError", "ValidationError", "ShapeMismatch", "TypeMismatch",
    "ZeroLiteral", "ConfigError", "OutOfMemory",
    "InternalConsistencyError", "PreconditionViolation", "SolverConfig",
    "SolverSession", "create_session"]

/-- The version of the main package. -/
def version : String := "0.1.0"

-- ========================================================== the modules

/-- What the main package declares: its exports and its version. -/
def mainDeclarations : List (String × Attribute) :=
  [solveFunction, itersolveFunction, thing "UNSAT" "str",
    thing "UNKNOWN" "str", allocatorInterface, hostAllocator, cursorClass,
    engineInterface, outcomeClass, resolveFunction, configClass,
    sessionClass, createSession, thing "__version__" "str",
    thing "__all__" "list"]
  ++ ErrorClass.defined.map errorClass

/-- The modules in the main package. -/
def mainModules : List (String × Attribute) :=
  ["api", "allocator", "cursor", "dimacs", "engine", "errors", "ingest",
    "session", "solution"].map module_

/-- What the package of the engines declares. -/
def engineDeclarations : List (String × Attribute) :=
  [thing "annotations" "_Feature",
    function "import_module" (.fails .missingOperation),
    thing "Callable" "_CallableType", typingOptional, module_ "os",
    allocatorInterface, errorClass .config, engineInterface, outcomeClass,
    factoryAlias, thing "DEFAULT_ENGINE" "str",
    thing "_KNOWN_ENGINES" "dict", resolveFunction, thing "__all__" "list"]
  ++ codes

/-- The modules in the package of the engines. -/
def engineModules : List (String × Attribute) :=
  ["base", "result", "z3_engine"].map module_

/-- The module of the engine with tables. -/
def tableEngineModule : Module := plain (
  [module_ "logging", module_ "struct", module_ "time", typingList,
    typingOptional, typingTextStream, thing "Tuple" "_TupleType",
    module_ "z3", allocatorInterface,
    function "write_dimacs" (.fails .wrongKind), errorClass .outOfMemory,
    errorClass .preconditionViolation, loggerThing,
    number "_INITIAL_CAPACITY" 16, number "_INITIAL_LITERALS" 16,
    thing "_LIT" "Struct", number "_LIT_MAX" 2147483647,
    making tableEngineHome "Z3Engine" .tables] ++ codes)

/-- The module of the session. -/
def sessionModule : Module := plain
  [function "dataclass" (.fails .missingOperation), integralClass,
    typingAny, typingOptional, typingUnion, module_ "logging",
    module_ "sys", module_ "time", allocatorInterface, hostAllocator,
    factoryAlias, engineInterface, outcomeClass, resolveFunction,
    errorClass .config, errorClass .internalConsistency,
    errorClass .preconditionViolation, ingestFunction, loggerThing,
    configClass, sessionClass, createSession]

/-- The module of clause checks. -/
def ingestModule : Module := plain
  [refusing "collections.abc" "Sequence", integralClass, typingAny,
    typingList, engineInterface, errorClass .shapeMismatch,
    errorClass .typeMismatch, errorClass .zeroLiteral,
    function "_is_sequence" .methodless,
    function "validate_clause"
      (.fails (.clauseShape (.int 0) memoryKind)), ingestFunction]

/-- The module of scripted engines, and a number that makes none. -/
def scriptedModule : Module := plain
  [making "oracle_fakes" "AllTrue" (.scripted {}),
    making "oracle_fakes" "AlwaysUnsat"
      (.scripted { codes := [.int 20] }),
    making "oracle_fakes" "AlwaysUnknown"
      (.scripted { codes := [.int 0] }),
    number "NOT_CALLABLE" 5]

/-- What the package of the search that engines are built on declares, as
far as it concerns engines. -/
def searchDeclarations : List (String × Attribute) :=
  [making "z3.z3" "Solver" (.fails .unmetCondition),
    making "z3.z3" "Context" (.fails .searchRefusal),
    refusing "z3.z3" "Optimize", searchError,
    inert "z3.z3" "CheckSatResult", thing "sat" "CheckSatResult",
    thing "unsat" "CheckSatResult", thing "unknown" "CheckSatResult"]
  ++ ["AstRef", "BoolRef", "ExprRef", "ModelRef", "Statistics"].map
    (refusing "z3.z3")
  ++ ["And", "AtLeast", "AtMost", "Bool", "BoolVal", "Bools", "Implies",
      "Not", "Or", "Xor", "get_version", "get_version_string", "main_ctx",
      "set_param", "simplify", "solve"].map
    (function · (.fails .wrongKind))

/-- The modules in that package, with what they declare of it. -/
def searchModules : List (String × List (String × Attribute)) :=
  [("z3", searchDeclarations), ("z3types", [searchError])]
  ++ ["z3consts", "z3core", "z3num", "z3poly", "z3printer", "z3rcf",
      "z3util"].map (·, [])

/-- A module without a description of its own. -/
def undescribed (attributes : List (String × Attribute)) :
    List (String × Attribute) :=
  thing "__doc__" "NoneType" :: attributes

/-- The name of the file of a package. -/
def packageFile : String := "__init__"

/-- A package by its name: what it declares and the modules in it. The
file of the package can also be named as a module in it, one that has the
declarations alone. -/
def packageWith (name : String)
    (declarations inner : List (String × Attribute)) :
    List (String × Module) :=
  [(name, package (declarations ++ inner)),
    (name ++ "." ++ packageFile, plain declarations)]

/-- All modules by name. -/
def modules : List (String × Module) :=
  packageWith "zuspec.be.sat" mainDeclarations mainModules
  ++ packageWith "zuspec.be.sat.engine" engineDeclarations engineModules
  ++ packageWith "z3" (undescribed searchDeclarations)
    (searchModules.map fun inner => module_ inner.1)
  ++ searchModules.map (fun inner =>
    ("z3." ++ inner.1, plain (undescribed inner.2)))
  ++ [("zuspec", folder [module_ "be"]),
    ("zuspec.be", folder [module_ "sat"]),
    (tableEngineHome, tableEngineModule),
    (baseHome, plain
      [typingProtocol, typingTextStream, allocatorInterface,
        engineInterface]),
    (resultHome, plain
      (codesClass :: outcomeClass :: codes)),
    (errorsHome, plain (ErrorClass.defined.map errorClass)),
    (allocatorHome, plain
      [typingOptional, typingProtocol, allocatorInterface, hostAllocator]),
    ("zuspec.be.sat.ingest", ingestModule),
    (sessionHome, sessionModule),
    ("zuspec.be.sat.solution", plain
      [typingList, typingOptional, errorClass .internalConsistency,
        errorClass .outOfMemory, sessionClass,
        function "_value" (.fails .wrongKind), decodeFunction,
        blockFunction]),
    (cursorHome, plain
      [typingList, typingOptional, module_ "logging", outcomeClass,
        sessionClass, blockFunction, decodeFunction, loggerThing,
        cursorClass]),
    ("zuspec.be.sat.api", plain
      [typingAny, typingList, typingOptional, typingUnion,
        allocatorInterface, cursorClass, factoryAlias, outcomeClass,
        configClass, createSession, decodeFunction, thing "UNSAT" "str",
        thing "UNKNOWN" "str", solveFunction, itersolveFunction]),
    ("zuspec.be.sat.dimacs", plain
      [thing "annotations" "_Feature", refusing "pathlib" "Path",
        thing "Sequence" "_SpecialGenericAlias", typingTextStream,
        function "generate_dimacs" (.fails .wrongKind),
        function "write_dimacs" (.fails .wrongKind)]),
    ("oracle_fakes", scriptedModule)]

end SatSession.Catalogue
