import ArchReview.Layer.Glob
import ArchReview.Path.Basic
import ArchReview.Text.Case
import ArchReview.Text.Unknown

/-!
# Layers

A project is divided into presentation, business and data. A `LayerMap` says by path patterns
which file is where; the first layer with a fitting pattern wins.
-/

namespace ArchReview

inductive Layer where
  | presentation
  | business
  | data
  deriving DecidableEq, Repr, Inhabited

namespace Layer

/-- From the outermost to the innermost. -/
def all : List Layer := [presentation, business, data]

def text : Layer → String
  | presentation => "presentation"
  | business     => "business"
  | data         => "data"

/-- A layer by name or second name, in any case. -/
def ofName? (name : String) : Option Layer :=
  match Text.lower name with
  | "presentation" | "ui"  => some presentation
  | "business" | "domain"  => some business
  | "data" | "persistence" => some data
  | _                      => none

def read (name : String) : Except UnknownName Layer := UnknownName.resolve .layer ofName? name

/-- Where a layer may import from, unless the settings say otherwise. -/
def permitted : Layer → List Layer
  | presentation => [presentation, business]
  | business     => [business, data]
  | data         => [data]

/-- Where the files of a layer are, unless the settings say otherwise. -/
def patterns : Layer → List String
  | presentation =>
    ["**/views/**", "**/view/**", "**/controllers/**", "**/components/**", "**/pages/**",
     "**/routes/**", "**/handlers/**", "**/templates/**", "**/ui/**", "**/views.py"]
  | business =>
    ["**/services/**", "**/service/**", "**/domain/**", "**/usecases/**", "**/use_cases/**",
     "**/business/**", "**/core/**", "**/services.py"]
  | data =>
    ["**/models/**", "**/repositories/**", "**/repository/**", "**/db/**", "**/database/**",
     "**/dal/**", "**/data/**", "**/entities/**", "**/models.py"]

end Layer

/-- Path patterns by layer, in the order in which they are tried. -/
structure LayerMap where
  entries : List (Layer × List String)
  deriving DecidableEq, Repr, Inhabited

namespace LayerMap

def standard : LayerMap := ⟨Layer.all.map fun l => (l, l.patterns)⟩

/-- The layer of a file. -/
def classify (m : LayerMap) (path : Path) : Option Layer :=
  (m.entries.find? fun e => e.2.any fun p => Glob.accepts p path.text).map fun e => e.1

/-- The patterns of a layer, from its first entry. -/
def patterns (m : LayerMap) (layer : Layer) : List String :=
  ((m.entries.find? fun e => e.1 == layer).map fun e => e.2).getD []

/-- No file has a layer. -/
def isEmpty (m : LayerMap) : Bool := m.entries.all fun e => e.2.isEmpty

end LayerMap

end ArchReview
