import ArchReview.Cache.Basic
import ArchReview.Json.Read
import ArchReview.Json.Write
import ArchReview.Outline.Document

/-!
# Caches between runs

A cache is written as one document with its entries by path. A document that cannot be read, or of
another version, counts as an empty cache.
-/

namespace ArchReview

open Json

/-- Where a project keeps its cache. -/
def cacheFile : String := ".archaudit-cache.json"

namespace CacheEntry

def fieldNames : List String := ["file_path", "hash", "result"]

def json (e : CacheEntry) : Json :=
  object [
    ("file_path", string e.path.text),
    ("hash", string e.digest),
    ("result", e.outline.json)]

def ofJson? (v : Json) : Option CacheEntry := do
  let fs ← fields? fieldNames v
  return {
    path := ⟨← fs.required? "file_path" string?⟩
    digest := ← fs.required? "hash" string?
    outline := ← fs.required? "result" Outline.ofJson? }

end CacheEntry

namespace Cache

/-- Raised whenever the form of an outline changes. -/
def version : Nat := 1

def json (c : Cache) : Json :=
  object [
    ("version", natural version),
    ("entries", array
      ((c.entries.mergeSort fun a b => a.path.le b.path).map CacheEntry.json))]

/-- The version of a document and its entries. -/
def entriesOf? (v : Json) : Option (Nat × List CacheEntry) := do
  let fs ← fields? ["version", "entries"] v
  let version ← fs.required? "version" natural?
  let entries ← fs.required? "entries" (list? CacheEntry.ofJson?)
  if version < Nat.pow 2 32 then return (version, entries) else none

/-- A cache with some entries, put in one after the other. -/
def ofEntries (entries : List CacheEntry) : Cache :=
  entries.foldl (fun c e => c.put e.path e.digest e.outline) empty

def ofJson (v : Json) : Cache :=
  match entriesOf? v with
  | some (n, entries) => if n == version then ofEntries entries else empty
  | none              => empty

def text (c : Cache) : String := c.json.compact

def ofText (text : String) : Cache :=
  match Json.parse? text with
  | some v => ofJson v
  | none   => empty

end Cache

end ArchReview
