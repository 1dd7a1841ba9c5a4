import ArchReview.Proofs.Outline.Document
import ArchReview.Proofs.Outline.Names
import ArchReview.Proofs.Toml.Keys
import ArchReview.Settings.Document
import Mathlib.Data.List.Basic

/-!
# Layers by several names

In a settings document the patterns of a layer stand under its name.  A layer has two names, each in
any case, so a table with distinct keys may name one layer several times.

**The last name counts** (`Settings.parse_layers`).  In settings that are accepted, a layer has the
patterns under the last of its names, in the order of the names, or the standard ones if it is not
named, and these are the patterns that have been checked.  So the patterns under a key are kept if
no other key names its layer; the patterns under any name but the last are dropped, and are not even
looked at (`Settings.parse_drops_patterns`).
-/

namespace ArchReview

/-! ### Tables with distinct keys -/

namespace Text

theorem map_fst_table {α : Type} (entries : List (String × α)) :
    (table entries).map Prod.fst = nameSet (entries.map Prod.fst) := by
  suffices grown : ∀ t : List (String × α),
      (entries.foldl (fun t e => insertEntry e.1 e.2 t) t).map Prod.fst =
        (entries.map Prod.fst).foldl (fun set name => insertName name set) (t.map Prod.fst) from
    grown []
  induction entries with
  | nil => exact fun _ => rfl
  | cons e entries ih =>
      intro t
      rw [List.foldl_cons, ih, map_fst_insertEntry]
      rfl

theorem insertEntry_perm {α : Type} {key : String} {value : α} :
    ∀ {entries : List (String × α)}, key ∉ entries.map Prod.fst →
      (insertEntry key value entries).Perm ((key, value) :: entries)
  | [], _ => .refl _
  | e :: entries, new => by
      rw [insertEntry]
      split
      · exact .refl _
      · rename_i heq
        exact absurd (Std.LawfulEqCmp.eq_of_compare heq ▸ List.mem_cons_self) new
      · have later : key ∉ entries.map Prod.fst := fun h => new (List.mem_cons_of_mem _ h)
        exact ((insertEntry_perm later).cons e).trans (.swap _ _ _)

/-- A table holds the entries it is made of, if no key is given twice. -/
theorem table_perm {α : Type} {entries : List (String × α)}
    (distinct : (entries.map Prod.fst).Nodup) : (table entries).Perm entries := by
  suffices grown : ∀ t : List (String × α), ((t ++ entries).map Prod.fst).Nodup →
      (entries.foldl (fun t e => insertEntry e.1 e.2 t) t).Perm (t ++ entries) from
    grown [] distinct
  induction entries with
  | nil =>
      intro t _
      rw [List.append_nil]
      exact .refl _
  | cons e entries ih =>
      intro t distinct'
      have moved : (t ++ e :: entries).Perm (e :: t ++ entries) := List.perm_middle
      have apart := (moved.map Prod.fst).nodup_iff.mp distinct'
      have new : e.1 ∉ t.map Prod.fst := by
        intro h
        obtain ⟨absent, -⟩ := List.nodup_cons.mp apart
        exact absent (List.map_subset _ (List.subset_append_left t entries) h)
      have placed : (insertEntry e.1 e.2 t ++ entries).Perm (e :: t ++ entries) :=
        (insertEntry_perm new).append_right entries
      rw [List.foldl_cons]
      exact (ih (List.nodup_cons.mp distinct).2 _
        ((placed.map Prod.fst).nodup_iff.mpr apart)).trans (placed.trans moved.symm)

end Text

/-! ### The table of layers -/

namespace Settings
open Json (exists_of_bind)
open Text Toml

/-- The rows of the table of layers in a text: its keys in the order of the text, each with the
patterns under it. -/
def layerRows? (text : String) : Option (List (String × List String)) :=
  (Toml.parse? text).bind fun entries =>
    match named? "layers" entries with
    | some (.table rows) => rows.mapM fun e => (texts? e.2).map fun patterns => (e.1, patterns)
    | _                  => none

/-- Of the rows that name a layer, the one with the last key. -/
structure IsLastNaming (rows : List (String × List String)) (l : Layer)
    (row : String × List String) : Prop where
  mem : row ∈ rows
  names : Layer.ofName? row.1 = some l
  last : ∀ other ∈ rows, Layer.ofName? other.1 = some l →
    other = row ∨ compareStrings other.1 row.1 = .lt

/-- The patterns of the layers come from the rows of a table. -/
structure LayersFollow (rows : List (String × List String)) (m : LayerMap) : Prop where
  named : ∀ row ∈ rows, ∃ l, Layer.ofName? row.1 = some l
  last : ∀ l, (∃ row ∈ rows, Layer.ofName? row.1 = some l) →
    ∃ row, IsLastNaming rows l row ∧ m.patterns l = row.2
  standard : ∀ l : Layer, (∀ row ∈ rows, Layer.ofName? row.1 ≠ some l) → m.patterns l = l.patterns
  valid : ∀ l, ∀ p ∈ m.patterns l, Glob.fault? p = none
  /-- The patterns under the only name of a layer are all kept. -/
  alone : ∀ row ∈ rows, ∀ l, Layer.ofName? row.1 = some l →
    (∀ other ∈ rows, Layer.ofName? other.1 = some l → other = row) →
    ∀ p ∈ row.2, Glob.fault? p = none ∧ p ∈ m.patterns l

/-! ### Reading the table -/

theorem map_fst_of_mapM {table : List (String × Toml)} {rows : List (String × List String)}
    (h : (table.mapM fun e => (texts? e.2).map fun patterns => (e.1, patterns)) = some rows) :
    rows.map Prod.fst = table.map Prod.fst := by
  induction table generalizing rows with
  | nil =>
      cases h
      rfl
  | cons e table ih =>
      rw [List.mapM_cons] at h
      obtain ⟨row, hrow, h⟩ := exists_of_bind h
      obtain ⟨rest, hrest, h⟩ := exists_of_bind h
      obtain ⟨patterns, -, rfl⟩ := Option.map_eq_some_iff.mp hrow
      cases h
      rw [List.map_cons, List.map_cons, ih hrest]

/-- The keys of the table are distinct, as in every table that is read. -/
theorem nodup_of_layerRows? {text : String} {rows : List (String × List String)}
    (h : layerRows? text = some rows) : (rows.map Prod.fst).Nodup := by
  obtain ⟨entries, hentries, h⟩ := Option.bind_eq_some_iff.mp h
  split at h
  · rename_i table htable
    obtain ⟨e, he, hvalue⟩ := Option.map_eq_some_iff.mp htable
    rw [map_fst_of_mapM h]
    cases distinct_of_parse? hentries with
    | table _ inside =>
        have distinct := inside e (List.mem_of_find?_eq_some he)
        rw [hvalue] at distinct
        cases distinct with
        | table keys _ => exact keys
  · cases h

/-- A document that can be read has the rows of its table of layers, in the order of the keys. -/
theorem layers_of_parse? {text : String} {d : SettingsDocument} {rows : List (String × List String)}
    (h : SettingsDocument.parse? text = some d) (hrows : layerRows? text = some rows) :
    d.layers = some (Text.table rows) := by
  obtain ⟨entries, hentries, hrows⟩ := Option.bind_eq_some_iff.mp hrows
  obtain ⟨entries', hentries', h⟩ := exists_of_bind h
  cases hentries.symm.trans hentries'
  obtain ⟨thresholds, -, h⟩ := exists_of_bind h
  obtain ⟨graph, -, h⟩ := exists_of_bind h
  obtain ⟨layers, hlayers, h⟩ := exists_of_bind h
  obtain ⟨dependencies, -, h⟩ := exists_of_bind h
  obtain ⟨dip, -, h⟩ := exists_of_bind h
  obtain ⟨business, -, h⟩ := exists_of_bind h
  obtain ⟨drift, -, h⟩ := exists_of_bind h
  obtain ⟨exclude, -, h⟩ := exists_of_bind h
  cases h
  split at hrows
  · rename_i table htable
    have read : optional? textTable? (named? "layers" entries) = some layers := hlayers
    rw [htable] at read
    obtain ⟨given, hgiven, rfl⟩ := Option.map_eq_some_iff.mp read
    obtain ⟨lists, hlists, hgiven⟩ := exists_of_bind hgiven
    cases hlists.symm.trans hrows
    cases hgiven
    rfl
  · cases hrows

/-! ### From the rows to the layers -/

/-- Every key has been read as the name of a layer. -/
theorem map_of_mapM_layerNamed {given : List (String × List String)}
    {entries : List (Layer × List String)}
    (h : (given.mapM fun e => return (← layerNamed e.1, e.2)) = Except.ok entries) :
    (given.map fun e => (Layer.ofName? e.1, e.2)) = entries.map fun e => (some e.1, e.2) := by
  induction given generalizing entries with
  | nil =>
      cases h
      rfl
  | cons e given ih =>
      rw [List.mapM_cons, layerNamed] at h
      cases hname : Layer.ofName? e.1 with
      | none =>
          rw [hname] at h
          cases h
      | some l =>
          rw [hname] at h
          cases hrest : given.mapM fun e => return (← layerNamed e.1, e.2) with
          | error fault =>
              rw [hrest] at h
              cases h
          | ok rest =>
              rw [hrest] at h
              cases h
              rw [List.map_cons, List.map_cons, ih hrest, hname]

/-- The patterns of a layer are those under the last key that names it. -/
theorem layersFrom_of_layerMap {given : List (String × List String)} {m : LayerMap}
    (h : layerMap given = .ok m) :
    (∀ e ∈ given, ∃ l, Layer.ofName? e.1 = some l) ∧
      ∀ l, m.patterns l = ((given.reverse.find? fun e => Layer.ofName? e.1 == some l).map
        fun e => e.2).getD l.patterns := by
  rw [layerMap] at h
  cases hentries : given.mapM fun e => return (← layerNamed e.1, e.2) with
  | error fault =>
      rw [hentries] at h
      cases h
  | ok entries =>
      rw [hentries] at h
      cases h
      have read := map_of_mapM_layerNamed hentries
      refine ⟨fun e he => ?_, fun l => ?_⟩
      · have named : (Layer.ofName? e.1, e.2) ∈ entries.map fun e => (some e.1, e.2) :=
          read ▸ List.mem_map_of_mem he
        obtain ⟨e', -, heq⟩ := List.mem_map.mp named
        exact ⟨e'.1, (Prod.ext_iff.mp heq).1.symm⟩
      · have found : (entries.reverse.find? fun e => e.1 == l).map (fun e => e.2) =
            (given.reverse.find? fun e => Layer.ofName? e.1 == some l).map fun e => e.2 := by
          have both := congrArg (fun named =>
            (named.reverse.find? fun e => e.1 == some l).map fun e => e.2) read
          simp only [← List.map_reverse, List.find?_map, Option.map_map] at both
          exact both.symm
        rw [← found]
        cases l <;> rfl

/-- What is found first from behind is the last of its kind, in a list in ascending order. -/
theorem isLastNaming_of_find? {rows given : List (String × List String)} (hperm : given.Perm rows)
    (ascending : given.Pairwise fun x y => compareStrings x.1 y.1 = .lt) {l : Layer}
    {row : String × List String}
    (h : (given.reverse.find? fun e => Layer.ofName? e.1 == some l) = some row) :
    IsLastNaming rows l row := by
  obtain ⟨hnames, after, before, hsplit, hafter⟩ := List.find?_eq_some_iff_append.mp h
  have parts : given = before.reverse ++ row :: after.reverse := by
    have := congrArg List.reverse hsplit
    simpa using this
  have named : Layer.ofName? row.1 = some l := eq_of_beq hnames
  refine ⟨hperm.mem_iff.mp (parts ▸ by simp), named, fun other hother hname => ?_⟩
  rw [parts] at ascending
  have hmem := parts ▸ hperm.mem_iff.mpr hother
  rcases List.mem_append.mp hmem with hbefore | hrest
  · exact .inr ((List.pairwise_append.mp ascending).2.2 other hbefore row List.mem_cons_self)
  · rcases List.mem_cons.mp hrest with rfl | hlater
    · exact .inl rfl
    · -- nothing behind the row names the layer
      have := hafter other (List.mem_reverse.mp hlater)
      simp [hname] at this

theorem layers_of_ofDocument {d : SettingsDocument} {s : Settings}
    {given : List (String × List String)} (h : ofDocument d = .ok s)
    (hgiven : d.layers = some given) : layerMap given = .ok s.layers ∧ s.fault? = none := by
  unfold ofDocument at h
  rw [hgiven] at h
  cases hlayers : layerMap given with
  | error fault =>
      simp only [hlayers] at h
      cases h
  | ok layers =>
      simp only [hlayers] at h
      cases hdependencies : dependencyMap (d.layerDependencies.getD []) with
      | error fault =>
          simp only [hdependencies] at h
          cases h
      | ok dependencies =>
          simp only [hdependencies] at h
          dsimp only [bind, Except.bind] at h
          split at h
          · cases h
          · rename_i hfault
            cases h
            exact ⟨rfl, hfault⟩

/-- Settings without a fault have well-formed patterns only. -/
theorem valid_of_fault? {s : Settings} (h : s.fault? = none) (l : Layer) :
    ∀ p ∈ s.layers.patterns l, Glob.fault? p = none := by
  unfold fault? at h
  simp only [Option.or_eq_none_iff] at h
  obtain ⟨-, -, hlayers, -⟩ := h
  have listed : l ∈ Layer.all := by cases l <;> decide
  have fine := List.findSome?_eq_none_iff.mp hlayers l listed
  rw [patternFault?, Option.map_eq_none_iff] at fine
  exact List.findSome?_eq_none_iff.mp fine

/-- **The last name counts**, in all settings that are accepted. -/
theorem parse_layers {text : String} {s : Settings} {rows : List (String × List String)}
    (h : parse text = .ok s) (hrows : layerRows? text = some rows) :
    LayersFollow rows s.layers := by
  unfold parse at h
  split at h
  · cases h
  · rename_i d hd
    obtain ⟨hlayers, hfault⟩ := layers_of_ofDocument h (layers_of_parse? hd hrows)
    obtain ⟨named, patterns⟩ := layersFrom_of_layerMap hlayers
    have hperm : (Text.table rows).Perm rows := table_perm (nodup_of_layerRows? hrows)
    have ascending : (Text.table rows).Pairwise fun x y => compareStrings x.1 y.1 = .lt := by
      have keys := ascending_nameSet (rows.map Prod.fst)
      rw [← map_fst_table] at keys
      exact List.pairwise_map.mp keys
    have last : ∀ l, (∃ row ∈ rows, Layer.ofName? row.1 = some l) →
        ∃ row, IsLastNaming rows l row ∧ s.layers.patterns l = row.2 := by
      rintro l ⟨row, hrow, hname⟩
      rw [patterns l]
      cases hfind : (Text.table rows).reverse.find? fun e => Layer.ofName? e.1 == some l with
      | none =>
          have absent := List.find?_eq_none.mp hfind row
            (List.mem_reverse.mpr (hperm.mem_iff.mpr hrow))
          simp [hname] at absent
      | some found => exact ⟨found, isLastNaming_of_find? hperm ascending hfind, rfl⟩
    have valid := valid_of_fault? hfault
    refine ⟨fun row hrow => named row (hperm.mem_iff.mpr hrow), last, fun l hl => ?_, valid,
      fun row hrow l hname alone p hp => ?_⟩
    · have hfind : ((Text.table rows).reverse.find? fun e => Layer.ofName? e.1 == some l) = none :=
        List.find?_eq_none.mpr fun e he hname =>
          hl e (hperm.mem_iff.mp (List.mem_reverse.mp he)) (eq_of_beq hname)
      rw [patterns l, hfind]
      rfl
    · obtain ⟨found, hfound, hpatterns⟩ := last l ⟨row, hrow, hname⟩
      have kept : p ∈ s.layers.patterns l := by
        rw [hpatterns, alone found hfound.mem hfound.names]
        exact hp
      exact ⟨valid l p kept, kept⟩

/-- The first layer under both of its names, with a pattern that makes no sense. -/
def twoNames : String :=
  "[layers]\npresentation = [\"web/**\", \"\"]\nui = [\"front/**\"]\nData = [\"db/**\"]\n"

def twoNameRows : List (String × List String) :=
  [("presentation", ["web/**", ""]), ("ui", ["front/**"]), ("Data", ["db/**"])]

theorem parse_layers_twoNames :
    ∃ s, parse twoNames = .ok s ∧ layerRows? twoNames = some twoNameRows ∧
      LayersFollow twoNameRows s.layers := by
  have accepted : ∃ s, parse twoNames = .ok s ∧ True :=
    exists_ok_of_any (by decide +kernel)
  obtain ⟨s, hs, -⟩ := accepted
  have hrows : layerRows? twoNames = some twoNameRows := by decide +kernel
  exact ⟨s, hs, hrows, parse_layers hs hrows⟩

/-- The patterns under the first of the two names are neither kept nor checked. -/
theorem parse_drops_patterns :
    ("presentation", ["web/**", ""]) ∈ twoNameRows ∧ layerRows? twoNames = some twoNameRows ∧
      Layer.ofName? "presentation" = some .presentation ∧ Glob.fault? "" ≠ none ∧
      ∃ s, parse twoNames = .ok s ∧ "web/**" ∉ s.layers.patterns .presentation := by
  refine ⟨by decide, by decide +kernel, by decide +kernel, by decide +kernel, ?_⟩
  exact exists_ok_of_any (by decide +kernel)

end Settings

end ArchReview
