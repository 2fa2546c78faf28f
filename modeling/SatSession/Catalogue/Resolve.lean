/-
From the name of an engine to what it names.

A registered name stands for a path. A path is a module and an attribute
with a colon between them, cut at the first colon, and neither part may
be empty. A module is found only if every module in front of it in its
dotted name is, so the shortest part that leads nowhere is the one to
report.
-/
import SatSession.Catalogue
import SatSession.Engine.Dispatch
import SatSession.Session
import SatSession.Search.Learning

namespace SatSession.Catalogue

-- ============================================================ the names

/-- The name used when none is given. -/
def defaultName : String := "z3"

/-- The registered names and the paths they stand for. -/
def registered : List (String × String) :=
  [(defaultName, tableEngineHome ++ ":Z3Engine")]

/-- The beginnings of a dotted name, shortest first, each ending in front
of a dot or with the name. -/
def leadingNames (name : String) : List String :=
  let parts := name.splitOn "."
  (List.range parts.length).map fun n => ".".intercalate (parts.take (n + 1))

/-- Finds the module at the end of a list of names, each of which lies
inside the one in front of it. -/
def findModule (parent : Option (String × Module)) :
    List String → Except PathFault Module
  | [] =>
      match parent with
      | some (_, found) => .ok found
      | none => .error (.noModule "" none)
  | name :: rest =>
      match parent, modules.lookup name with
      | some (above, ⟨false, _⟩), _ => .error (.noModule name (some above))
      | _, some found => findModule (some (name, found)) rest
      | _, none => .error (.noModule name none)

/-- Finds an attribute by its path. -/
def findAttribute (moduleName attributeName : String) :
    Except PathFault Attribute := do
  let found ← findModule none (leadingNames moduleName)
  match found.attributes.lookup attributeName with
  | some a => return a
  | none => throw (.noAttribute moduleName attributeName)

/-- Cuts a path at its first colon; fails if there is none or a part is
empty. -/
def cutPath? (path : String) : Option (String × String) :=
  let chars := path.toList
  let front := chars.takeWhile (· != ':')
  match chars.dropWhile (· != ':') with
  | _ :: back =>
      if front.isEmpty || back.isEmpty then none
      else some (String.ofList front, String.ofList back)
  | [] => none

/-- Resolves a name that is a text. A module name that begins with a dot
is relative to nothing, which is refused as a mistake of another kind. -/
def resolveText (name : String) : Except Fault Attribute :=
  match cutPath? ((registered.lookup name).getD name) with
  | none => .error (.unknownEngine name none)
  | some (moduleName, attributeName) =>
      if moduleName.startsWith "." then .error .wrongKind
      else match findAttribute moduleName attributeName with
        | .ok a => .ok a
        | .error reason => .error (.unknownEngine name (some reason))

/-- Resolves a name of any kind. Without a name the environment may give
one, where an empty one counts as none. A value that is no text fails
when it is looked up, if it cannot be a key, and otherwise when it is
cut; bytes can be cut, but not at a text. -/
def resolve (environment : Option String) (name : Value) :
    Except Fault Attribute :=
  match name with
  | .none =>
      match environment with
      | some given =>
          resolveText (if given.isEmpty then defaultName else given)
      | none => resolveText defaultName
  | .text s => resolveText s
  | .bytes .memoryview _ => .error .missingOperation
  | .bytes .. => .error .wrongKind
  | v => .error (if v.isHashable then .missingOperation else .wrongKind)

-- ========================================================== the engines

/-- The engine with tables and the search by splitting. -/
def tableEngine : HostOp AnyEngine := do
  return .table (← TableEngine.create Learning.search)

/-- Makes an engine from a response that involves no further session.
One that does would ask the environment for an engine again, and so
without an end. -/
def simpleEngine : Response → HostOp AnyEngine
  | .tables => tableEngine
  | .scripted script => do return .scripted (← Scripted.create script)
  | .blank => return .blank
  | .methodless => return .methodless {}
  | .cursor => return .methodless { isCursor := true }
  | .fails f => throw f
  | .asCode codes => do throw (.codeRange (← get).heap.text codes)
  | .asClauses => throw .endlessNesting

/-- Runs an operation on a memory of its own, which is forgotten with the
plan and the counts that belong to it. -/
def onOwnMemory {α : Type} (op : HostOp α) : HostOp α := fun host =>
  let inner := { host with
    heap := .empty none, plan := .open false, requests := 0, frees := 0 }
  let restore (after : Host) : Host := { after with
    heap := host.heap, plan := host.plan, requests := host.requests,
    frees := host.frees }
  match op inner with
  | .ok a after => .ok a (restore after)
  | .error f after => .error f (restore after)

/-- Makes an engine from a response. A memory taken for the clause set of
a new session is refused there, after that session has made the engine of
the environment for itself and reset it. -/
def engineFor (environment : Option String) :
    Response → HostOp AnyEngine
  | .asClauses => onOwnMemory do
      match resolve environment .none with
      | .error f => throw f
      | .ok a =>
          let session ← Session.create (simpleEngine a.response) {}
            (.object memoryKind)
          return session.engine
  | other => simpleEngine other

/-- Makes the engine that a name of any kind leads to. -/
def makeEngine (environment : Option String) (name : Value) :
    HostOp AnyEngine :=
  match resolve environment name with
  | .error f => throw f
  | .ok a => engineFor environment a.response

/-- What a caller gives to say which engine is wanted: a name of any
kind, or the script of one. -/
inductive Choice where
  | named (name : Value)
  | scripted (script : Script)

/-- The engine that is chosen. -/
def Choice.make (environment : Option String) : Choice → HostOp AnyEngine
  | .named name => makeEngine environment name
  | .scripted script => do return .scripted (← Scripted.create script)

end SatSession.Catalogue
