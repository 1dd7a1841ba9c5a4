import ArchReview.Rule.Marker
import ArchReview.Rule.Project
import ArchReview.Text.Search

/-!
# Rules of the layers

Presentation code does not talk to the database, data code holds no business rules, and every
layer imports only from the layers it is allowed to. The first two look at the lines of a file,
the third at its links.
-/

namespace ArchReview.Layering

/-! ### Lines -/

def isCommentLine (line : List Char) : Bool :=
  let trimmed := Text.trimStart line
  [['#'], ['/', '/'], ['/', '*'], ['*']].any fun mark => mark.isPrefixOf trimmed

/-- The lines of a text that are no comments, with their numbers. -/
def codeLines (text : String) : List (Nat × List Char) :=
  ((Text.lines text.toList).zipIdx 1).filterMap fun (line, n) =>
    if isCommentLine line then none else some (n, line)

/-! ### Database access -/

open Text (Piece hasPhrase) in
/-- The statements of SQL that give a query away. -/
def sqlPhrases : List (List Piece) :=
  [Piece.word "SELECT" ++ [.run fun c => c != '\n'] ++ Piece.word "FROM",
   (.edge :: "INSERT".toList.map .letter) ++ [.run Text.isBlank] ++
     "INTO".toList.map .letter ++ [.edge],
   (.edge :: "UPDATE".toList.map .letter) ++ [.run Text.isBlank, .run Text.isWord,
     .run Text.isBlank] ++ "SET".toList.map .letter ++ [.edge],
   (.edge :: "DELETE".toList.map .letter) ++ [.run Text.isBlank] ++
     "FROM".toList.map .letter ++ [.edge]]

def hasRawSql (line : List Char) : Bool := sqlPhrases.any fun p => Text.hasPhrase p line

/-- Calls that reach the database. -/
def callMarkers : List String :=
  [".query(", ".execute(", ".executemany(", ".raw(", ".objects.", ".filter_by(", ".delete(",
   ".findOne(", ".findMany(", ".findUnique(", ".findAll(", ".aggregate(", "getRepository(",
   "createQueryBuilder(", "db.session.", "cursor("]

def isNameChar (c : Char) : Bool := Text.isAlphanumeric c || c == '_'

/-- A marker occurs; one that starts with a word starts at a word. -/
def hasMarker (line marker : List Char) : Bool :=
  (Text.occurrences marker line).any fun place =>
    !(marker.head?.any isNameChar) || !(place.lead.head?.any isNameChar)

/-- The first occurrence of a marker follows a quote. -/
def isQuoted (line marker : List Char) : Bool :=
  (Text.occurrences marker line).head?.any fun place =>
    (Text.trimStart place.lead).head?.any fun c => ['"', '\'', '`'].contains c

/-- What a line does with the database: raw SQL is worse than a call. -/
def databaseUse? (line : List Char) : Option (Severity × String) :=
  if hasRawSql line then some (.critical, "raw SQL")
  else (callMarkers.find? fun m => hasMarker line m.toList && !isQuoted line m.toList).map fun m =>
    (.high, s!"`{m}`")

/-- At most one violation to a line. -/
def databaseAccess (f : SourceOutline) : List Violation :=
  (codeLines f.text).filterMap fun (n, line) =>
    (databaseUse? line).map fun (severity, marker) =>
      { rule := "LAYER-001"
        category := .layer
        severity
        title := "Direct database access in presentation layer"
        description := s!"Presentation code issues {marker} directly: `" ++
          String.ofList (Text.trim line) ++ "`"
        path := f.outline.path
        line := some n
        recommendation :=
          "Move data access into a repository or service and call that instead."
        details := Text.table [("marker", marker), ("layer", Layer.presentation.text)] }

/-! ### Business rules -/

/-- The markers that start at an edge of a word, left to right; of several at one place the first
in the list. `skip` characters belong to the last one. -/
def markersIn (markers : List (List Char)) (before : Option Char) (skip : Nat) :
    List Char → List (List Char)
  | []      => []
  | c :: cs =>
    if skip > 0 then markersIn markers (some c) (skip - 1) cs
    else if Text.atWordEdge before (some c) then
      match markers.find? fun m => m.isPrefixOf (c :: cs) with
      | some m => m :: markersIn markers (some c) (m.length - 1) cs
      | none   => markersIn markers (some c) 0 cs
    else markersIn markers (some c) 0 cs

/-- One violation for all business rules in a file. -/
def businessLogic (markers : List String) (f : SourceOutline) : List Violation :=
  let markers := Marker.usable markers
  let hits := (codeLines f.text).filterMap fun (n, line) =>
    match markersIn markers none 0 line with
    | []    => none
    | found => some (n, found)
  match hits with
  | []              => []
  | (first, _) :: _ =>
    let names := Text.nameSet (hits.flatMap fun h => h.2.map String.ofList)
    [{ rule := "LAYER-002"
       category := .layer
       severity := .medium
       title := "Business logic in data layer"
       description := "Data-layer module contains business rules (" ++ ", ".intercalate names ++
         s!") on {hits.length} line(s)."
       path := f.outline.path
       line := some first
       recommendation := "Keep persistence code free of rules; move validation and calculations " ++
         "into the service layer."
       details := Text.table
         [("markers", ",".intercalate names), ("lines", toString hits.length)] }]

/-! ### Imports across layers -/

/-- The links of a file to a layer that its own may not use, one for each line and target, with
that layer. -/
def breaches (s : Settings) (layer : Layer) (links : List Link) : List (Link × Layer) :=
  (links.foldl (fun (seen, found) link =>
    match s.layers.classify link.target with
    | none        => (seen, found)
    | some target =>
      if (s.permittedLayers layer).contains target || seen.contains (link.line, link.target) then
        (seen, found)
      else (seen ++ [(link.line, link.target)], found ++ [(link, target)]))
    (([] : List (Nat × Path)), ([] : List (Link × Layer)))).2

def layerImports (p : Project) (layer : Layer) (o : Outline) : List Violation :=
  let permitted := ", ".intercalate ((p.settings.permittedLayers layer).map Layer.text)
  (breaches p.settings layer (p.graph.linksOf o.path.normalize)).map fun (link, target) =>
    { rule := "LAYER-003"
      category := .layer
      severity := .high
      title := s!"{layer.text} layer imports from {target.text} layer"
      description := s!"`{link.modulePath}` resolves to {link.target.text} which belongs to the " ++
        s!"{target.text} layer; {layer.text} may only depend on {permitted}."
      path := o.path
      line := some link.line
      recommendation := "Route the dependency through a layer this module is allowed to use."
      details := Text.table
        [("from_layer", layer.text), ("to_layer", target.text), ("target", link.target.text)] }

/-! ### The analyzer -/

/-- What is wrong with a file of a layer. -/
def inLayer (p : Project) (layer : Layer) (f : SourceOutline) : List Violation :=
  (match layer with
    | .presentation => databaseAccess f
    | .data         => businessLogic p.settings.businessMarkers f
    | .business     => []) ++ layerImports p layer f.outline

/-- The layer of a file is that of its path as given. -/
def inFile (p : Project) (f : SourceOutline) : List Violation :=
  match p.settings.layers.classify f.outline.path with
  | none       => []
  | some layer => inLayer p layer f

/-- Why business rules cannot be looked for, if they cannot. Without layers nobody looks. -/
def refusal? (s : Settings) : Option String :=
  if s.layers.isEmpty then none
  else Marker.refusal? s.compiler "business-logic"
    (Marker.pattern? "\\b(?:" ")" s.businessMarkers)

def analyzer : Analyzer where
  name := "layers"
  run p := p.inEachFileUnless (refusal? p.settings) (inFile p)

end ArchReview.Layering
