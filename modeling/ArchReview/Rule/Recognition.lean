import ArchReview.Rule.Project
import ArchReview.Violation.Pattern

/-!
# Recognising design patterns

Repositories and factories are known by name or by the verbs of their methods, strategies by an
interface with two implementations, dependency injection by the types of a constructor's
parameters.
-/

namespace ArchReview.Recognition

/-! ### Verbs -/

def readVerbs : List String := ["get", "find", "fetch", "list", "all", "read", "load", "query"]

def writeVerbs : List String :=
  ["add", "create", "save", "insert", "update", "delete", "remove", "store", "put"]

def creationVerbs : List String := ["create", "make", "build", "from"]

/-- The first word of a name in camel or snake case, in lower case and without digits. -/
def leadingWord (name : String) : String :=
  let trimmed := name.toList.dropWhile (· == '_')
  let word := match trimmed with
    | []      => []
    | c :: cs => c :: cs.takeWhile fun c => !(c.isUpper || c == '_')
  Text.before (fun c => c == '_' || c.isDigit) (String.ofList (Text.lowerChars word))

/-! ### Single classes -/

def repositoryEvidence? (c : ClassDef) : Option String :=
  if Text.endsWith c.name "Repository" || Text.endsWith c.name "Repo" then
    some "named as a repository"
  else
    let verbs := Text.nameSet (c.methods.map fun m => leadingWord m.name)
    let reads := verbs.filter readVerbs.contains
    let writes := verbs.filter writeVerbs.contains
    if !reads.isEmpty && writes.length ≥ 2 then
      some ("CRUD methods: " ++ ", ".intercalate (reads ++ writes))
    else none

def factoryEvidence? (c : ClassDef) : Option String :=
  if Text.endsWith c.name "Factory" then some "named as a factory"
  else
    let creators := c.methods.filter fun m =>
      (m.isStatic || m.decorators.contains "classmethod") &&
        creationVerbs.contains (leadingWord m.name)
    if creators.isEmpty then none
    else some ("static creators: " ++ ", ".intercalate (creators.map FunctionDef.name))

/-! ### Interfaces and their users -/

/-- Endings of names that stand for something abstract. -/
def abstractEndings : List String :=
  ["Repository", "Repo", "Service", "Interface", "Protocol", "Gateway", "Port", "Provider",
   "Client"]

/-- A type that stands for something abstract: a known interface, or a name that says so. -/
def looksAbstract (interfaces : List String) (type : String) : Bool :=
  let base := Text.afterLast (· == '.')
    (Text.trimString (Text.before (fun c => c == '[' || c == '<' || c == '|') type))
  interfaces.contains base || abstractEndings.any (Text.endsWith base) ||
    match base.toList with
    | 'I' :: c :: _ => c.isUpper
    | _             => false

/-- The name of a base without module and type arguments. -/
def baseName (base : String) : String :=
  Text.before (fun c => c == '<' || c == '[') (Text.afterLast (· == '.') base)

/-- The classes of the files that could be read. -/
def classes (p : Project) : List ClassDef := p.parsed.flatMap fun f => f.outline.classes

def interfaceNames (p : Project) : List String :=
  ((classes p).filter ClassDef.isInterface).map ClassDef.name

/-- The classes with an interface among their bases, once for each mention. -/
def implementers (p : Project) (interface : String) : List String :=
  (classes p).flatMap fun c =>
    (c.bases.filter fun b => baseName b == interface).map fun _ => c.name

def strategyEvidence? (p : Project) (c : ClassDef) : Option String :=
  let found := implementers p c.name
  if c.isInterface && found.length ≥ 2 then
    some ("implemented by " ++ ", ".intercalate (Text.nameSet found))
  else none

def injectionEvidence? (interfaces : List String) (c : ClassDef) : Option String :=
  c.constructor?.bind fun constructor =>
    let injected := (constructor.parameterTypes.filterMap id).filter (looksAbstract interfaces)
    if injected.isEmpty then none
    else some ("constructor receives " ++ ", ".intercalate injected)

/-! ### Projects -/

/-- By kind, file, line and subject. -/
def le (a b : PatternFinding) : Bool :=
  ((compare a.kind.rank b.kind.rank).then <|
   (a.path.compare b.path).then <|
   (compare a.line b.line).then <|
   Text.compareStrings a.subject b.subject) != .gt

/-- The patterns that one class follows. -/
def inClass (p : Project) (interfaces : List String) (path : Path) (c : ClassDef) :
    List PatternFinding :=
  [(PatternKind.repository, repositoryEvidence? c),
   (.factory, factoryEvidence? c),
   (.strategy, strategyEvidence? p c),
   (.dependencyInjection, injectionEvidence? interfaces c)].filterMap fun (kind, evidence?) =>
    evidence?.map fun evidence => ⟨kind, path, c.startLine, c.name, evidence⟩

/-- The patterns that the classes of a project follow. -/
def recognize (p : Project) : List PatternFinding :=
  let interfaces := interfaceNames p
  (p.parsed.flatMap fun f => f.outline.classes.flatMap
    (inClass p interfaces f.outline.path)).mergeSort le

end ArchReview.Recognition
