import ArchReview.Outline.Reader
import ArchReview.Source.Digest

/-!
# Remembered outlines

A cache keeps one outline for each path, together with the digest of the content it was taken
from. Reading through a cache looks at all files first and remembers what was read afterwards.
-/

namespace ArchReview

structure CacheEntry where
  path : Path
  digest : String
  outline : Outline
  deriving DecidableEq, Repr, Inhabited

structure Cache where
  entries : List CacheEntry
  deriving DecidableEq, Repr, Inhabited

namespace Cache

def empty : Cache := ⟨[]⟩

def size (c : Cache) : Nat := c.entries.length

def isEmpty (c : Cache) : Bool := c.entries.isEmpty

/-- The outline that is known for a path and a content. -/
def find? (c : Cache) (path : Path) (digest : String) : Option Outline :=
  match c.entries.find? fun e => e.path.same path with
  | some e => if e.digest == digest then some e.outline else none
  | none   => none

/-- Remembers an outline; a path that is already there keeps its spelling. -/
def put (c : Cache) (path : Path) (digest : String) (outline : Outline) : Cache :=
  if c.entries.any fun e => e.path.same path then
    ⟨c.entries.map fun e => if e.path.same path then { e with digest, outline } else e⟩
  else ⟨c.entries ++ [⟨path, digest, outline⟩]⟩

/-- A file as read, with the digest to remember it under unless it was known. -/
def lookup (c : Cache) (r : Reader) (file : SourceFile) : SourceOutline × Option String :=
  let key := digest file.content
  match c.find? file.path key with
  | some outline => (⟨outline, decode file.content⟩, none)
  | none         => (r.read file, some key)

/-- Remembers a file that was read and is worth it. -/
def remember (c : Cache) : SourceOutline × Option String → Cache
  | (f, some key) => if f.outline.succeeded then c.put f.outline.path key f.outline else c
  | (_, none)     => c

/-- Reads files through the cache. -/
def readAll (c : Cache) (r : Reader) (files : List SourceFile) : List SourceOutline × Cache :=
  let outcomes := files.map (c.lookup r)
  (outcomes.map fun o => o.1, outcomes.foldl remember c)

end Cache

end ArchReview
