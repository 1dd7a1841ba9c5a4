import ArchReview.Toml.Read
import Mathlib.Data.List.Nodup

/-!
# The keys of a table

A document is read into nodes, to which keys are added one by one: below headers, by dotted keys,
and inside braces.  Every addition looks whether its key is there already, so no table ends up with
a key twice (`Toml.distinct_of_parse?`).
-/

namespace ArchReview.Toml

/-- No table in a value has a key twice. -/
inductive Distinct : Toml → Prop where
  | string (s : String) : Distinct (string s)
  | integer (n : Int) : Distinct (integer n)
  | float (x : Float) : Distinct (float x)
  | boolean (b : Bool) : Distinct (boolean b)
  | moment (s : String) : Distinct (moment s)
  | array {items : List Toml} (h : ∀ v ∈ items, Distinct v) : Distinct (array items)
  | table {entries : List (String × Toml)} (keys : (entries.map Prod.fst).Nodup)
      (h : ∀ e ∈ entries, Distinct e.2) : Distinct (table entries)

/-- No table below a node has a key twice. -/
inductive Node.Distinct : Node → Prop where
  | value {v : Toml} (h : v.Distinct) : Distinct (value v)
  | table {origin : Origin} {entries : List (String × Node)} (keys : (entries.map Prod.fst).Nodup)
      (h : ∀ e ∈ entries, Distinct e.2) : Distinct (table origin entries)
  | tables {last : List (String × Node)} {earlier : List (List (String × Node))}
      (keys : ∀ es ∈ last :: earlier, (es.map Prod.fst).Nodup)
      (h : ∀ es ∈ last :: earlier, ∀ e ∈ es, Distinct e.2) : Distinct (tables last earlier)

/-- Nor do these entries have a key twice. -/
structure Entries.Distinct (es : Entries) : Prop where
  keys : (es.map Prod.fst).Nodup
  nodes : ∀ e ∈ es, e.2.Distinct

/-! ### Additions -/

namespace Entries

theorem distinct_nil : Entries.Distinct [] := ⟨.nil, nofun⟩

namespace Distinct

variable {es : Entries} (hes : Entries.Distinct es)
include hes

theorem find? {key : String} {node : Node} (h : es.find? key = some node) : node.Distinct := by
  obtain ⟨e, he, rfl⟩ := Option.map_eq_some_iff.mp h
  exact hes.nodes e (List.mem_of_find?_eq_some he)

theorem set (key : String) {node : Node} (hnode : node.Distinct) :
    Entries.Distinct (es.set key node) := by
  unfold Entries.set
  split
  · refine ⟨?_, fun e he => ?_⟩
    · have same (e : String × Node) : (if e.1 == key then (key, node) else e).1 = e.1 := by
        by_cases h : e.1 = key <;> simp [h]
      have keys : (es.map (Prod.fst ∘ fun e => if e.1 == key then (key, node) else e)) =
          es.map Prod.fst := List.map_congr_left fun e _ => same e
      rw [List.map_map, keys]
      exact hes.keys
    · obtain ⟨e', he', rfl⟩ := List.mem_map.mp he
      split
      · exact hnode
      · exact hes.nodes e' he'
  · rename_i absent
    refine ⟨?_, fun e he => ?_⟩
    · rw [List.map_append, List.map_singleton]
      refine List.nodup_append'.mpr ⟨hes.keys, List.nodup_singleton _, ?_⟩
      rw [List.disjoint_singleton]
      intro hmem
      obtain ⟨e, he, hkey⟩ := List.mem_map.mp hmem
      exact absent (List.any_eq_true.mpr ⟨e, he, beq_of_eq hkey⟩)
    · rcases List.mem_append.mp he with he | he
      · exact hes.nodes e he
      · rw [List.mem_singleton.mp he]
        exact hnode

/-- A table that stands under a key has distinct keys. -/
theorem entries {key : String} {origin : Origin} {old : Entries}
    (h : es.find? key = some (.table origin old)) : Entries.Distinct old := by
  cases hes.find? h with
  | table keys nodes => exact ⟨keys, nodes⟩

theorem addValue {v : Toml} (hv : v.Distinct) {path : List String} {es' : Entries}
    (h : es.addValue v path = some es') : Entries.Distinct es' := by
  fun_induction Entries.addValue v path es generalizing es' with
  | case1 es => cases h
  | case2 key es hfind =>
      cases h
      exact hes.set key (.value hv)
  | case3 key es node hfind => cases h
  | case4 key keys es hkeys hfind ih =>
      obtain ⟨inner, hinner, rfl⟩ := Option.map_eq_some_iff.mp h
      obtain ⟨inside, nodes⟩ := ih distinct_nil hinner
      exact hes.set key (.table inside nodes)
  | case5 key keys es hkeys origin old hfind horigin => cases h
  | case6 key keys es hkeys origin old hfind horigin ih =>
      obtain ⟨inner, hinner, rfl⟩ := Option.map_eq_some_iff.mp h
      obtain ⟨inside, nodes⟩ := ih (hes.entries hfind) hinner
      exact hes.set key (.table inside nodes)
  | case7 key keys es hkeys node hfind hnode => cases h

theorem under {change : Entries → Option Entries}
    (hchange : ∀ {es es' : Entries}, Entries.Distinct es → change es = some es' →
      Entries.Distinct es')
    {path : List String} {es' : Entries} (h : es.under change path = some es') :
    Entries.Distinct es' := by
  fun_induction Entries.under change path es generalizing es' with
  | case1 es => exact hchange hes h
  | case2 key keys es hfind ih =>
      obtain ⟨inner, hinner, rfl⟩ := Option.map_eq_some_iff.mp h
      obtain ⟨inside, nodes⟩ := ih distinct_nil hinner
      exact hes.set key (.table inside nodes)
  | case3 key keys es origin old hfind ih =>
      obtain ⟨inner, hinner, rfl⟩ := Option.map_eq_some_iff.mp h
      obtain ⟨inside, nodes⟩ := ih (hes.entries hfind) hinner
      exact hes.set key (.table inside nodes)
  | case4 key keys es old earlier hfind ih =>
      obtain ⟨inner, hinner, rfl⟩ := Option.map_eq_some_iff.mp h
      cases hes.find? hfind with
      | tables keys nodes =>
          obtain ⟨last, earlier⟩ := List.forall_mem_cons.mp keys
          obtain ⟨lastNodes, earlierNodes⟩ := List.forall_mem_cons.mp nodes
          obtain ⟨inside, innerNodes⟩ := ih ⟨last, lastNodes⟩ hinner
          exact hes.set key (.tables (List.forall_mem_cons.mpr ⟨inside, earlier⟩)
            (List.forall_mem_cons.mpr ⟨innerNodes, earlierNodes⟩))
  | case5 key keys es v hfind => cases h

theorem nameTable {key : String} {es' : Entries} (h : es.nameTable key = some es') :
    Entries.Distinct es' := by
  unfold Entries.nameTable at h
  split at h
  · cases h
    exact hes.set key (.table .nil nofun)
  · rename_i old hfind
    cases h
    obtain ⟨inside, nodes⟩ := hes.entries hfind
    exact hes.set key (.table inside nodes)
  · cases h

theorem beginTable {key : String} {es' : Entries} (h : es.beginTable key = some es') :
    Entries.Distinct es' := by
  unfold Entries.beginTable at h
  split at h
  · cases h
    exact hes.set key (.tables (List.forall_mem_singleton.mpr .nil)
      (List.forall_mem_singleton.mpr nofun))
  · rename_i last earlier hfind
    cases h
    cases hes.find? hfind with
    | tables keys nodes =>
        exact hes.set key (.tables (List.forall_mem_cons.mpr ⟨.nil, keys⟩)
          (List.forall_mem_cons.mpr ⟨nofun, nodes⟩))
  · cases h

theorem atHeader {change : String → Entries → Option Entries}
    (hchange : ∀ {key : String} {es es' : Entries}, Entries.Distinct es →
      change key es = some es' → Entries.Distinct es')
    {header : List String} {es' : Entries} (h : es.atHeader change header = some es') :
    Entries.Distinct es' := by
  unfold Entries.atHeader at h
  split at h
  · cases h
  · exact hes.under hchange h

end Distinct

end Entries

/-! ### Finished tables -/

theorem finishEntries_eq : ∀ es : Entries, finishEntries es = es.map fun e => (e.1, e.2.finish)
  | [] => rfl
  | (k, node) :: es => by rw [finishEntries, finishEntries_eq es, List.map_cons]

theorem finishTables_eq : ∀ (earlier : List Entries) (later : List Toml),
    finishTables earlier later =
      (earlier.map fun es => Toml.table (finishEntries es)).reverse ++ later
  | [], _ => rfl
  | es :: earlier, later => by
      rw [finishTables, finishTables_eq earlier, List.map_cons, List.reverse_cons,
        List.append_assoc, List.singleton_append]

theorem distinct_finishEntries {es : Entries} (keys : (es.map Prod.fst).Nodup)
    (h : ∀ e ∈ es, e.2.finish.Distinct) : (Toml.table (finishEntries es)).Distinct := by
  rw [finishEntries_eq]
  refine .table ?_ fun e he => ?_
  · rw [List.map_map]
    exact keys
  · obtain ⟨e', he', rfl⟩ := List.mem_map.mp he
    exact h e' he'

theorem Node.Distinct.finish {node : Node} (h : node.Distinct) : node.finish.Distinct := by
  induction h with
  | value h =>
      rw [Node.finish]
      exact h
  | table keys _ ih =>
      rw [Node.finish]
      exact distinct_finishEntries keys ih
  | tables keys _ ih =>
      rw [Node.finish, finishTables_eq]
      refine .array fun v hv => ?_
      rcases List.mem_append.mp hv with hv | hv
      · obtain ⟨es, hes, rfl⟩ := List.mem_map.mp (List.mem_reverse.mp hv)
        exact distinct_finishEntries (keys es (List.mem_cons_of_mem _ hes))
          (ih es (List.mem_cons_of_mem _ hes))
      · rw [List.mem_singleton.mp hv]
        exact distinct_finishEntries (keys _ List.mem_cons_self) (ih _ List.mem_cons_self)

theorem Entries.Distinct.finish {es : Entries} (h : Entries.Distinct es) :
    (Toml.table (finishEntries es)).Distinct :=
  distinct_finishEntries h.keys fun e he => (h.nodes e he).finish

/-! ### Values -/

theorem distinct_of_scalar? {cs : List Char} {v : Toml} (h : scalar? cs = some v) :
    v.Distinct := by
  unfold scalar? at h
  split at h
  · cases h
    exact .boolean true
  · cases h
    exact .boolean false
  · split at h
    · split at h
      · cases h
        exact .integer _
      · cases h
    · split at h
      · cases h
        exact .float _
      · split at h
        · cases h
          exact .moment _
        · cases h

/-- In so many steps, no table with a key twice is read. -/
structure ReadsDistinct (fuel : Nat) : Prop where
  value : ∀ {cs rest : List Char} {v : Toml}, value? fuel cs = some (v, rest) → v.Distinct
  items : ∀ {read : List Toml} {cs rest : List Char} {v : Toml}, (∀ u ∈ read, u.Distinct) →
    items? fuel read cs = some (v, rest) → v.Distinct
  entries : ∀ {read : Entries} {cs rest : List Char} {v : Toml}, Entries.Distinct read →
    entries? fuel read cs = some (v, rest) → v.Distinct

namespace ReadsDistinct

variable {fuel : Nat} {cs rest : List Char} {v : Toml} (ih : ReadsDistinct fuel)
include ih

theorem value_step (h : value? (fuel + 1) cs = some (v, rest)) : v.Distinct := by
  unfold value? at h
  dsimp only at h
  split at h
  · obtain ⟨s, -, e⟩ := Option.map_eq_some_iff.mp h
    cases e
    exact .string _
  · obtain ⟨s, -, e⟩ := Option.map_eq_some_iff.mp h
    cases e
    exact .string _
  · exact ih.items (List.forall_mem_nil _) h
  · exact ih.entries Entries.distinct_nil h
  · obtain ⟨u, hu, h⟩ := Option.bind_eq_some_iff.mp h
    cases h
    exact distinct_of_scalar? hu

theorem items_step {read : List Toml} (hread : ∀ u ∈ read, u.Distinct)
    (h : items? (fuel + 1) read cs = some (v, rest)) : v.Distinct := by
  unfold items? at h
  dsimp only at h
  split at h
  · cases h
    exact .array fun u hu => hread u (List.mem_reverse.mp hu)
  · obtain ⟨⟨u, r⟩, hu, h⟩ := Option.bind_eq_some_iff.mp h
    have more : ∀ w ∈ u :: read, w.Distinct := List.forall_mem_cons.mpr ⟨ih.value hu, hread⟩
    dsimp only at h
    split at h
    · exact ih.items more h
    · cases h
      exact .array fun w hw => more w (List.mem_reverse.mp hw)
    · cases h

theorem entries_step {read : Entries} (hread : Entries.Distinct read)
    (h : entries? (fuel + 1) read cs = some (v, rest)) : v.Distinct := by
  unfold entries? at h
  dsimp only at h
  split at h
  · cases h
    exact hread.finish
  · obtain ⟨⟨path, r⟩, -, h⟩ := Option.bind_eq_some_iff.mp h
    dsimp only at h
    split at h
    · obtain ⟨⟨u, r⟩, hu, h⟩ := Option.bind_eq_some_iff.mp h
      obtain ⟨read', hadd, h⟩ := Option.bind_eq_some_iff.mp h
      have more := hread.addValue (ih.value hu) hadd
      dsimp only at h
      split at h
      · exact ih.entries more h
      · cases h
        exact more.finish
      · cases h
    · cases h

end ReadsDistinct

theorem readsDistinct (fuel : Nat) : ReadsDistinct fuel := by
  induction fuel with
  | zero =>
      refine ⟨fun h => ?_, fun _ h => ?_, fun _ h => ?_⟩
      · rw [value?] at h
        cases h
      · rw [items?] at h
        cases h
      · rw [entries?] at h
        cases h
  | succ fuel ih => exact ⟨ih.value_step, ih.items_step, ih.entries_step⟩

/-! ### Documents -/

theorem distinct_of_lines? {fuel : Nat} {header : List String} {es es' : Entries} {cs : List Char}
    (hes : Entries.Distinct es) (h : lines? fuel header es cs = some es') :
    Entries.Distinct es' := by
  induction fuel generalizing header es cs with
  | zero =>
      rw [lines?] at h
      cases h
  | succ fuel ih =>
      rw [lines?] at h
      split at h
      · cases h
        exact hes
      · obtain ⟨⟨path, rest⟩, -, h⟩ := Option.bind_eq_some_iff.mp h
        obtain ⟨es, hadd, h⟩ := Option.bind_eq_some_iff.mp h
        exact ih (hes.atHeader (fun hes => hes.beginTable) hadd) h
      · obtain ⟨⟨path, rest⟩, -, h⟩ := Option.bind_eq_some_iff.mp h
        obtain ⟨es, hadd, h⟩ := Option.bind_eq_some_iff.mp h
        exact ih (hes.atHeader (fun hes => hes.nameTable) hadd) h
      · obtain ⟨⟨path, rest⟩, -, h⟩ := Option.bind_eq_some_iff.mp h
        dsimp only at h
        split at h
        · obtain ⟨⟨v, rest⟩, hv, h⟩ := Option.bind_eq_some_iff.mp h
          obtain ⟨rest, -, h⟩ := Option.bind_eq_some_iff.mp h
          obtain ⟨es, hadd, h⟩ := Option.bind_eq_some_iff.mp h
          have hvalue := (readsDistinct _).value hv
          exact ih (hes.under (fun hes => hes.addValue hvalue) hadd) h
        · cases h

/-- **No key twice**: the tables of a document that is read have distinct keys. -/
theorem distinct_of_parse? {text : String} {entries : List (String × Toml)}
    (h : parse? text = some entries) : (table entries).Distinct := by
  obtain ⟨es, hes, rfl⟩ := Option.map_eq_some_iff.mp h
  exact (distinct_of_lines? Entries.distinct_nil hes).finish

end ArchReview.Toml
