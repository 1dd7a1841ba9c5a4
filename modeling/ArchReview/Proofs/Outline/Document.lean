import ArchReview.Outline.Document
import ArchReview.Proofs.Json.Text
import ArchReview.Proofs.Text.NameSet

/-!
# Outlines are read back

Every record of an outline is written and read field by field, so a record that is written is read
back as it was (`Outline.ofJson?_json`), and its text is read back as well (`Outline.fits_json`).
This holds of the records that can be stored (`Outline.Storable`): numbers are machine words, sets
of names and tables are kept in order.  What is read from a text can be stored
(`Outline.storable_of_ofJson?`).
-/

namespace ArchReview

/-! ### Sets and tables in order -/

namespace Text
open Std

/-- A set of names: strictly ascending. -/
def IsSet (names : List String) : Prop := names.Pairwise fun x y => compareStrings x y = .lt

instance (names : List String) : Decidable (IsSet names) :=
  inferInstanceAs (Decidable (names.Pairwise _))

/-- A table of sets: its keys strictly ascending. -/
structure IsTable (entries : List (String × List String)) : Prop where
  keys : IsSet (entries.map Prod.fst)
  values : ∀ e ∈ entries, IsSet e.2

theorem nameSet_of_isSet {names : List String} (h : IsSet names) : nameSet names = names :=
  eq_of_pairwise_lt (ascending_nameSet names) h fun _ => mem_nameSet

/-- An entry above all others goes to the end. -/
theorem insertEntry_of_lt {α : Type} {key : String} {value : α} :
    ∀ {entries : List (String × α)}, (∀ e ∈ entries, compareStrings e.1 key = .lt) →
      insertEntry key value entries = entries ++ [(key, value)]
  | [], _ => rfl
  | e :: entries, h => by
      have hgt : compareStrings key e.1 = .gt := OrientedCmp.gt_of_lt (h e List.mem_cons_self)
      rw [insertEntry, hgt]
      exact congrArg (e :: ·) (insertEntry_of_lt fun e' he' => h e' (List.mem_cons_of_mem _ he'))

theorem foldl_insertEntry {α : Type} : ∀ {entries table : List (String × α)},
    IsSet ((table ++ entries).map Prod.fst) →
      entries.foldl (fun t e => insertEntry e.1 e.2 t) table = table ++ entries
  | [], table, _ => (List.append_nil table).symm
  | e :: entries, table, h => by
      have hlt : ∀ e' ∈ table, compareStrings e'.1 e.1 = .lt := fun e' he' =>
        (List.pairwise_append.mp (List.pairwise_map.mp h)).2.2 e' he' e List.mem_cons_self
      rw [List.append_cons] at h ⊢
      rw [List.foldl_cons, insertEntry_of_lt hlt]
      exact foldl_insertEntry h

theorem table_of_isSet {α : Type} {entries : List (String × α)}
    (h : IsSet (entries.map Prod.fst)) : table entries = entries := foldl_insertEntry h

theorem map_fst_insertEntry {α : Type} {key : String} {value : α} :
    ∀ {entries : List (String × α)},
      (insertEntry key value entries).map Prod.fst = insertName key (entries.map Prod.fst)
  | [] => rfl
  | e :: entries => by
      rw [insertEntry, List.map_cons, insertName]
      split
      · rfl
      · rename_i heq
        rw [List.map_cons, LawfulEqCmp.eq_of_compare heq]
      · rw [List.map_cons, map_fst_insertEntry]

theorem mem_insertEntry {α : Type} {key : String} {value : α} {e : String × α} :
    ∀ {entries : List (String × α)}, e ∈ insertEntry key value entries →
      e = (key, value) ∨ e ∈ entries
  | [], h => Or.inl (List.mem_singleton.mp h)
  | d :: entries, h => by
      rw [insertEntry] at h
      split at h
      · exact List.mem_cons.mp h
      · exact (List.mem_cons.mp h).imp_right (List.mem_cons_of_mem d)
      · rcases List.mem_cons.mp h with rfl | h
        · exact Or.inr List.mem_cons_self
        · exact (mem_insertEntry h).imp_right (List.mem_cons_of_mem d)

theorem IsTable.insertEntry {entries : List (String × List String)} (h : IsTable entries)
    (key : String) {value : List String} (hvalue : IsSet value) :
    IsTable (insertEntry key value entries) where
  keys := by
    rw [map_fst_insertEntry]
    exact ascending_insertName h.keys
  values e he := by
    rcases mem_insertEntry he with rfl | he
    · exact hvalue
    · exact h.values e he

theorem isTable_table {entries : List (String × List String)} (h : ∀ e ∈ entries, IsSet e.2) :
    IsTable (table entries) := by
  suffices grown : ∀ t, IsTable t →
      IsTable (entries.foldl (fun t e => Text.insertEntry e.1 e.2 t) t) from
    grown [] ⟨.nil, nofun⟩
  induction entries with
  | nil => exact fun _ ht => ht
  | cons e entries ih =>
      intro t ht
      exact ih (fun e' he' => h e' (List.mem_cons_of_mem _ he')) _
        (ht.insertEntry e.1 (h e List.mem_cons_self))

end Text

open Json Text

/-! ### Fields -/

namespace Json

theorem distinctKeys_of_nodup : ∀ {fs : Fields}, (fs.map Prod.fst).Nodup → distinctKeys fs = true
  | [], _ => rfl
  | f :: fs, h => by
      obtain ⟨hf, hfs⟩ := List.nodup_cons.mp h
      have apart : ∀ g ∈ fs, g.1 ≠ f.1 := fun g hg e => hf (e ▸ List.mem_map_of_mem hg)
      simpa [distinctKeys, distinctKeys_of_nodup hfs] using fun a v hg => apart (a, v) hg

/-- A record is read with the fields it was written with. -/
theorem fields?_object {members : Fields} {names : List String}
    (h : members.map Prod.fst = names) (hnames : names.Nodup) :
    fields? names (object members) = some members := by
  subst h
  have known : members.filter (fun m => (members.map Prod.fst).contains m.1) = members :=
    List.filter_eq_self.mpr fun m hm => by simpa using ⟨m.2, hm⟩
  simp only [fields?, known, distinctKeys_of_nodup hnames, if_true]

theorem mapM_map_of_read {α β : Type} {read? : β → Option α} {write : α → β} :
    ∀ {l : List α}, (∀ a ∈ l, read? (write a) = some a) → (l.map write).mapM read? = some l
  | [], _ => rfl
  | a :: l, h => by
      rw [List.map_cons, List.mapM_cons, h a List.mem_cons_self,
        mapM_map_of_read fun b hb => h b (List.mem_cons_of_mem _ hb)]
      rfl

theorem list?_map {α : Type} {read? : Json → Option α} {write : α → Json} {l : List α}
    (h : ∀ a ∈ l, read? (write a) = some a) : list? read? (array (l.map write)) = some l :=
  mapM_map_of_read h

theorem list?_strings (l : List String) : list? string? (strings l) = some l :=
  list?_map fun _ _ => rfl

theorem option?_string (o : Option String) : option? string? (optional string o) = some o := by
  cases o <;> rfl

theorem option?_natural (o : Option Nat) : option? natural? (optional natural o) = some o := by
  cases o <;> rfl

theorem option?_path (o : Option Path) :
    option? string? (optional (fun p : Path => string p.text) o) = some (o.map Path.text) := by
  cases o <;> rfl

theorem required?_of_get? {α : Type} {fs : Fields} {name : String} {v : Json}
    {read? : Json → Option α} {a : α} (hget : fs.get? name = some v) (hread : read? v = some a) :
    fs.required? name read? = some a := by
  rw [Fields.required?, hget]
  exact hread

/-- A record is read one field after the other. -/
theorem bind_of_some {α β : Type} {x : Option α} {next : α → Option β} {a : α} {b : β}
    (hx : x = some a) (hnext : next a = some b) : (x >>= next) = some b := by
  rw [hx]
  exact hnext

/-! ### What is read -/

theorem exists_of_bind {α β : Type} {x : Option α} {next : α → Option β} {b : β}
    (h : (x >>= next) = some b) : ∃ a, x = some a ∧ next a = some b :=
  Option.bind_eq_some_iff.mp h

theorem exists_of_mapM {α β : Type} {read? : β → Option α} :
    ∀ {l : List β} {as : List α}, l.mapM read? = some as → ∀ a ∈ as, ∃ b ∈ l, read? b = some a
  | [], as, h, a, ha => by
      cases h
      cases ha
  | b :: l, as, h, a, ha => by
      rw [List.mapM_cons] at h
      obtain ⟨first, hfirst, h⟩ := exists_of_bind h
      obtain ⟨others, hothers, h⟩ := exists_of_bind h
      cases h
      rcases List.mem_cons.mp ha with rfl | ha
      · exact ⟨b, List.mem_cons_self, hfirst⟩
      · obtain ⟨b', hb', hread⟩ := exists_of_mapM hothers a ha
        exact ⟨b', List.mem_cons_of_mem b hb', hread⟩

/-- All natural numbers in the fields are machine words. -/
def Fields.Words (fs : Fields) : Prop := ∀ f ∈ fs, f.2.Words

theorem words_of_fields? {names : List String} {v : Json} {fs : Fields} (hv : v.Words)
    (h : fields? names v = some fs) : fs.Words := by
  intro f hf
  cases hv with
  | object hmembers =>
      rw [fields?] at h
      split at h
      · cases h
        exact hmembers f (List.mem_of_mem_filter hf)
      · cases h
  | array hitems =>
      rw [fields?] at h
      split at h
      · cases h
        exact hitems f.2 (List.of_mem_zip hf).2
      · cases h
  | null | bool | natural | negative | real | string => cases h

namespace Fields.Words

variable {fs : Fields} (h : fs.Words) {name : String}
include h

theorem get? {v : Json} (hv : fs.get? name = some v) : v.Words := by
  obtain ⟨f, hf, rfl⟩ := Option.map_eq_some_iff.mp hv
  exact h f (List.mem_of_find?_eq_some hf)

theorem required? {α : Type} {read? : Json → Option α} {a : α}
    (ha : fs.required? name read? = some a) : ∃ v, v.Words ∧ read? v = some a := by
  obtain ⟨v, hv, hread⟩ := Option.bind_eq_some_iff.mp ha
  exact ⟨v, h.get? hv, hread⟩

theorem natural {n : Nat} (hn : fs.required? name natural? = some n) : IsWord n := by
  obtain ⟨v, hv, hread⟩ := h.required? hn
  cases hv with
  | natural hword =>
      cases hread
      exact hword
  | null | bool | negative | real | string | array | object => cases hread

theorem list {α : Type} {read? : Json → Option α} {P : α → Prop}
    (hread : ∀ {v : Json} {a : α}, v.Words → read? v = some a → P a) {as : List α}
    (has : fs.required? name (list? read?) = some as) : ∀ a ∈ as, P a := by
  intro a ha
  obtain ⟨v, hv, hlist⟩ := h.required? has
  cases hv with
  | array hitems =>
      obtain ⟨item, hitem, hitem'⟩ := exists_of_mapM hlist a ha
      exact hread (hitems item hitem) hitem'
  | null | bool | natural | negative | real | string | object => cases hlist

theorem optionalNatural {o : Option Nat} (ho : fs.optional? name natural? = some o) :
    ∀ n ∈ o, IsWord n := by
  rintro n rfl
  unfold Fields.optional? at ho
  split at ho
  · cases ho
  · rename_i v hget
    have hv := h.get? hget
    cases hv with
    | natural hword =>
        cases ho
        exact hword
    | null | bool | negative | real | string | array | object => cases ho

end Fields.Words

/-! ### What fits -/

@[simp] theorem fits_natural_iff {depth n : Nat} : Fits depth (natural n) ↔ IsWord n :=
  ⟨fun | .natural h => h, .natural⟩

@[simp] theorem fits_bool (depth : Nat) (b : Bool) : Fits depth (bool b) := .bool b

@[simp] theorem fits_string (depth : Nat) (s : String) : Fits depth (string s) := .string s

theorem fits_map {α : Type} {depth : Nat} {write : α → Json} {l : List α}
    (h : ∀ a ∈ l, Fits depth (write a)) : Fits (depth + 1) (array (l.map write)) := by
  refine .array fun v hv => ?_
  obtain ⟨a, ha, rfl⟩ := List.mem_map.mp hv
  exact h a ha

theorem fits_optional {α : Type} {depth : Nat} {write : α → Json} {o : Option α}
    (h : ∀ a ∈ o, Fits depth (write a)) : Fits depth (optional write o) := by
  cases o with
  | none => exact .null
  | some a => exact h a rfl

@[simp] theorem fits_strings (depth : Nat) (l : List String) : Fits (depth + 1) (strings l) :=
  fits_map fun s _ => .string s

end Json

/-! ### Imports -/

theorem Language.word?_text (l : Language) : word? Language.ofText? (string l.text) = some l := by
  cases l <;> rfl

theorem ImportKind.word?_text (k : ImportKind) :
    word? ImportKind.ofText? (string k.text) = some k := by
  cases k <;> rfl

namespace Import

def Storable (i : Import) : Prop := IsWord i.line

theorem ofJson?_json (i : Import) : ofJson? i.json = some i := by
  have fields : fields? fieldNames i.json = some _ := fields?_object rfl (by decide +kernel)
  have base : (i.resolvedBase.map Path.text).map Path.mk = i.resolvedBase := by
    cases i.resolvedBase <;> rfl
  refine bind_of_some fields ?_
  refine bind_of_some rfl ?_
  iterate 2 refine bind_of_some (list?_strings _) ?_
  refine bind_of_some rfl ?_
  refine bind_of_some (option?_path i.resolvedBase) ?_
  refine bind_of_some (ImportKind.word?_text i.kind) ?_
  iterate 2 refine bind_of_some rfl ?_
  rw [base]
  rfl

theorem fits_json {i : Import} (h : i.Storable) (depth : Nat) : Fits (depth + 2) i.json := by
  have base : Fits (depth + 1) (optional (fun p : Path => string p.text) i.resolvedBase) :=
    fits_optional fun p _ => .string p.text
  have line : Fits (depth + 1) (natural i.line) := .natural h
  exact .object (by simp [base, line])

theorem storable_of_ofJson? {v : Json} {i : Import} (hv : v.Words) (h : ofJson? v = some i) :
    i.Storable := by
  obtain ⟨fs, hfs, h⟩ := exists_of_bind h
  have words := words_of_fields? hv hfs
  iterate 7 obtain ⟨_, -, h⟩ := exists_of_bind h
  obtain ⟨line, hline, h⟩ := exists_of_bind h
  cases h
  exact words.natural hline

end Import

/-! ### Functions and classes -/

namespace FunctionDef

structure Storable (f : FunctionDef) : Prop where
  startLine : IsWord f.startLine
  endLine : IsWord f.endLine
  parameterCount : IsWord f.parameterCount
  complexity : IsWord f.complexity
  instanceFields : IsSet f.instanceFields

theorem storable_of_ofJson? {v : Json} {f : FunctionDef} (hv : v.Words) (h : ofJson? v = some f) :
    f.Storable := by
  obtain ⟨fs, hfs, h⟩ := exists_of_bind h
  have words := words_of_fields? hv hfs
  obtain ⟨name, -, h⟩ := exists_of_bind h
  obtain ⟨startLine, hstart, h⟩ := exists_of_bind h
  obtain ⟨endLine, hend, h⟩ := exists_of_bind h
  obtain ⟨parameterCount, hcount, h⟩ := exists_of_bind h
  iterate 5 obtain ⟨_, -, h⟩ := exists_of_bind h
  obtain ⟨complexity, hcomplexity, h⟩ := exists_of_bind h
  iterate 3 obtain ⟨_, -, h⟩ := exists_of_bind h
  cases h
  exact ⟨words.natural hstart, words.natural hend, words.natural hcount, words.natural hcomplexity,
    ascending_nameSet _⟩

variable {f : FunctionDef} (h : f.Storable)
include h

theorem ofJson?_json : ofJson? f.json = some f := by
  have fields : fields? fieldNames f.json = some _ := fields?_object rfl (by decide +kernel)
  have types : list? (option? string?) (array (f.parameterTypes.map (optional string))) =
      some f.parameterTypes := list?_map fun o _ => option?_string o
  refine bind_of_some fields ?_
  iterate 4 refine bind_of_some rfl ?_
  refine bind_of_some types ?_
  iterate 3 refine bind_of_some rfl ?_
  refine bind_of_some (list?_strings _) ?_
  iterate 3 refine bind_of_some rfl ?_
  refine bind_of_some (list?_strings _) ?_
  rw [nameSet_of_isSet h.instanceFields]
  rfl

theorem fits_json (depth : Nat) : Fits (depth + 2) f.json := by
  have types : Fits (depth + 1) (array (f.parameterTypes.map (optional string))) :=
    fits_map fun o _ => fits_optional fun s _ => .string s
  refine .object ?_
  simp [types, h.startLine, h.endLine, h.parameterCount, h.complexity]

end FunctionDef

namespace ClassDef

structure Storable (c : ClassDef) : Prop where
  startLine : IsWord c.startLine
  endLine : IsWord c.endLine
  methodCount : IsWord c.methodCount
  fieldsByMethod : IsTable c.fieldsByMethod
  methods : ∀ m ∈ c.methods, m.Storable

theorem fieldTable?_of_isTable {entries : List (String × List String)} (h : IsTable entries) :
    fieldTable? (object (entries.map fun e => (e.1, strings e.2))) = some entries := by
  have read : (entries.map fun e => (e.1, strings e.2)).mapM
      (fun m => (list? string? m.2).map fun l => (m.1, nameSet l)) = some entries := by
    refine mapM_map_of_read fun e he => ?_
    rw [list?_strings, Option.map_some, nameSet_of_isSet (h.values e he)]
  refine bind_of_some read ?_
  rw [table_of_isSet h.keys]
  rfl

theorem isTable_of_fieldTable? {v : Json} {entries : List (String × List String)}
    (h : fieldTable? v = some entries) : IsTable entries := by
  unfold fieldTable? at h
  split at h
  · obtain ⟨read, hread, h⟩ := exists_of_bind h
    cases h
    refine isTable_table fun e he => ?_
    obtain ⟨m, -, hm⟩ := exists_of_mapM hread e he
    obtain ⟨names, -, rfl⟩ := Option.map_eq_some_iff.mp hm
    exact ascending_nameSet names
  · cases h

theorem storable_of_ofJson? {v : Json} {c : ClassDef} (hv : v.Words) (h : ofJson? v = some c) :
    c.Storable := by
  obtain ⟨fs, hfs, h⟩ := exists_of_bind h
  have words := words_of_fields? hv hfs
  obtain ⟨name, -, h⟩ := exists_of_bind h
  obtain ⟨startLine, hstart, h⟩ := exists_of_bind h
  obtain ⟨endLine, hend, h⟩ := exists_of_bind h
  iterate 3 obtain ⟨_, -, h⟩ := exists_of_bind h
  obtain ⟨methodCount, hcount, h⟩ := exists_of_bind h
  obtain ⟨fieldsByMethod, htable, h⟩ := exists_of_bind h
  obtain ⟨methods, hmethods, h⟩ := exists_of_bind h
  cases h
  obtain ⟨table, -, htable⟩ := words.required? htable
  exact ⟨words.natural hstart, words.natural hend, words.natural hcount,
    isTable_of_fieldTable? htable, words.list FunctionDef.storable_of_ofJson? hmethods⟩

variable {c : ClassDef} (h : c.Storable)
include h

theorem ofJson?_json : ofJson? c.json = some c := by
  have fields : fields? fieldNames c.json = some _ := fields?_object rfl (by decide +kernel)
  refine bind_of_some fields ?_
  iterate 3 refine bind_of_some rfl ?_
  refine bind_of_some (list?_strings _) ?_
  iterate 3 refine bind_of_some rfl ?_
  refine bind_of_some (fieldTable?_of_isTable h.fieldsByMethod) ?_
  refine bind_of_some (list?_map fun m hm => FunctionDef.ofJson?_json (h.methods m hm)) ?_
  rfl

theorem fits_json (depth : Nat) : Fits (depth + 4) c.json := by
  have table : Fits (depth + 3) (object (c.fieldsByMethod.map fun e => (e.1, strings e.2))) := by
    refine .object fun m hm => ?_
    obtain ⟨e, -, rfl⟩ := List.mem_map.mp hm
    exact fits_strings _ e.2
  have methods : Fits (depth + 3) (array (c.methods.map FunctionDef.json)) :=
    fits_map fun m hm => FunctionDef.fits_json (h.methods m hm) depth
  refine .object ?_
  simp [table, methods, h.startLine, h.endLine, h.methodCount]

end ClassDef

/-! ### Constructs inside bodies -/

namespace Chain

structure Storable (c : Chain) : Prop where
  line : IsWord c.line
  branchCount : IsWord c.branchCount

theorem ofJson?_json (c : Chain) : ofJson? c.json = some c := by
  have fields : fields? fieldNames c.json = some _ := fields?_object rfl (by decide +kernel)
  refine bind_of_some fields ?_
  iterate 2 refine bind_of_some rfl ?_
  refine bind_of_some (option?_string c.discriminant) ?_
  iterate 2 refine bind_of_some rfl ?_
  rfl

theorem fits_json {c : Chain} (h : c.Storable) (depth : Nat) : Fits (depth + 1) c.json := by
  have discriminant : Fits depth (optional string c.discriminant) :=
    fits_optional fun s _ => .string s
  refine .object ?_
  simp [discriminant, h.line, h.branchCount]

theorem storable_of_ofJson? {v : Json} {c : Chain} (hv : v.Words) (h : ofJson? v = some c) :
    c.Storable := by
  obtain ⟨fs, hfs, h⟩ := exists_of_bind h
  have words := words_of_fields? hv hfs
  obtain ⟨line, hline, h⟩ := exists_of_bind h
  obtain ⟨branchCount, hcount, h⟩ := exists_of_bind h
  iterate 3 obtain ⟨_, -, h⟩ := exists_of_bind h
  cases h
  exact ⟨words.natural hline, words.natural hcount⟩

end Chain

namespace Instantiation

structure Storable (i : Instantiation) : Prop where
  line : IsWord i.line
  argumentCount : IsWord i.argumentCount

theorem ofJson?_json (i : Instantiation) : ofJson? i.json = some i := by
  have fields : fields? fieldNames i.json = some _ := fields?_object rfl (by decide +kernel)
  exact bind_of_some fields rfl

theorem fits_json {i : Instantiation} (h : i.Storable) (depth : Nat) : Fits (depth + 1) i.json := by
  refine .object ?_
  simp [h.line, h.argumentCount]

theorem storable_of_ofJson? {v : Json} {i : Instantiation} (hv : v.Words)
    (h : ofJson? v = some i) : i.Storable := by
  obtain ⟨fs, hfs, h⟩ := exists_of_bind h
  have words := words_of_fields? hv hfs
  obtain ⟨className, -, h⟩ := exists_of_bind h
  obtain ⟨line, hline, h⟩ := exists_of_bind h
  obtain ⟨argumentCount, hcount, h⟩ := exists_of_bind h
  cases h
  exact ⟨words.natural hline, words.natural hcount⟩

end Instantiation

namespace NumberLiteral

def Storable (n : NumberLiteral) : Prop := IsWord n.line

theorem ofJson?_json (n : NumberLiteral) : ofJson? n.json = some n := by
  have fields : fields? fieldNames n.json = some _ := fields?_object rfl (by decide +kernel)
  exact bind_of_some fields rfl

theorem fits_json {n : NumberLiteral} (h : n.Storable) (depth : Nat) : Fits (depth + 1) n.json := by
  have line : IsWord n.line := h
  refine .object ?_
  simp [line]

theorem storable_of_ofJson? {v : Json} {n : NumberLiteral} (hv : v.Words)
    (h : ofJson? v = some n) : n.Storable := by
  obtain ⟨fs, hfs, h⟩ := exists_of_bind h
  have words := words_of_fields? hv hfs
  obtain ⟨value, -, h⟩ := exists_of_bind h
  obtain ⟨line, hline, h⟩ := exists_of_bind h
  obtain ⟨inConstant, -, h⟩ := exists_of_bind h
  cases h
  exact words.natural hline

end NumberLiteral

namespace GlobalWrite

def Storable (g : GlobalWrite) : Prop := IsWord g.line

theorem ofJson?_json (g : GlobalWrite) : ofJson? g.json = some g := by
  have fields : fields? fieldNames g.json = some _ := fields?_object rfl (by decide +kernel)
  exact bind_of_some fields rfl

theorem fits_json {g : GlobalWrite} (h : g.Storable) (depth : Nat) : Fits (depth + 1) g.json := by
  have line : IsWord g.line := h
  refine .object ?_
  simp [line]

theorem storable_of_ofJson? {v : Json} {g : GlobalWrite} (hv : v.Words)
    (h : ofJson? v = some g) : g.Storable := by
  obtain ⟨fs, hfs, h⟩ := exists_of_bind h
  have words := words_of_fields? hv hfs
  iterate 2 obtain ⟨_, -, h⟩ := exists_of_bind h
  obtain ⟨line, hline, h⟩ := exists_of_bind h
  cases h
  exact words.natural hline

end GlobalWrite

/-! ### Outlines -/

namespace Outline

/-- All numbers are machine words, all sets and tables are in order. -/
structure Storable (o : Outline) : Prop where
  lineCount : IsWord o.lineCount
  imports : ∀ i ∈ o.imports, i.Storable
  classes : ∀ c ∈ o.classes, c.Storable
  functions : ∀ f ∈ o.functions, f.Storable
  chains : ∀ c ∈ o.chains, c.Storable
  instantiations : ∀ i ∈ o.instantiations, i.Storable
  numbers : ∀ n ∈ o.numbers, n.Storable
  identifiers : IsSet o.identifiers
  globalWrites : ∀ g ∈ o.globalWrites, g.Storable
  errorLine : ∀ n ∈ o.errorLine, IsWord n

/-- **What is read can be stored.** -/
theorem storable_of_ofJson? {v : Json} {o : Outline} (hv : v.Words) (h : ofJson? v = some o) :
    o.Storable := by
  obtain ⟨fs, hfs, h⟩ := exists_of_bind h
  have words := words_of_fields? hv hfs
  iterate 2 obtain ⟨_, -, h⟩ := exists_of_bind h
  obtain ⟨lineCount, hcount, h⟩ := exists_of_bind h
  obtain ⟨imports, himports, h⟩ := exists_of_bind h
  obtain ⟨classes, hclasses, h⟩ := exists_of_bind h
  obtain ⟨functions, hfunctions, h⟩ := exists_of_bind h
  obtain ⟨strings, -, h⟩ := exists_of_bind h
  obtain ⟨chains, hchains, h⟩ := exists_of_bind h
  obtain ⟨instantiations, hinstantiations, h⟩ := exists_of_bind h
  obtain ⟨numbers, hnumbers, h⟩ := exists_of_bind h
  obtain ⟨identifiers, -, h⟩ := exists_of_bind h
  obtain ⟨globalWrites, hwrites, h⟩ := exists_of_bind h
  iterate 2 obtain ⟨_, -, h⟩ := exists_of_bind h
  obtain ⟨errorLine, hline, h⟩ := exists_of_bind h
  cases h
  exact {
    lineCount := words.natural hcount
    imports := words.list Import.storable_of_ofJson? himports
    classes := words.list ClassDef.storable_of_ofJson? hclasses
    functions := words.list FunctionDef.storable_of_ofJson? hfunctions
    chains := words.list Chain.storable_of_ofJson? hchains
    instantiations := words.list Instantiation.storable_of_ofJson? hinstantiations
    numbers := words.list NumberLiteral.storable_of_ofJson? hnumbers
    identifiers := ascending_nameSet _
    globalWrites := words.list GlobalWrite.storable_of_ofJson? hwrites
    errorLine := words.optionalNatural hline }

variable {o : Outline} (h : o.Storable)
include h

/-- **An outline is read back.** -/
theorem ofJson?_json : ofJson? o.json = some o := by
  have fields : fields? fieldNames o.json = some _ := fields?_object rfl (by decide +kernel)
  refine bind_of_some fields ?_
  refine bind_of_some rfl ?_
  refine bind_of_some (Language.word?_text o.language) ?_
  refine bind_of_some rfl ?_
  refine bind_of_some (list?_map fun i _ => i.ofJson?_json) ?_
  refine bind_of_some (list?_map fun c hc => ClassDef.ofJson?_json (h.classes c hc)) ?_
  refine bind_of_some (list?_map fun f hf => FunctionDef.ofJson?_json (h.functions f hf)) ?_
  refine bind_of_some (list?_strings _) ?_
  refine bind_of_some (list?_map fun c _ => c.ofJson?_json) ?_
  refine bind_of_some (list?_map fun i _ => i.ofJson?_json) ?_
  refine bind_of_some (list?_map fun n _ => n.ofJson?_json) ?_
  refine bind_of_some (list?_strings _) ?_
  refine bind_of_some (list?_map fun g _ => g.ofJson?_json) ?_
  refine bind_of_some rfl ?_
  refine bind_of_some (option?_string o.error) ?_
  refine bind_of_some (option?_natural o.errorLine) ?_
  rw [nameSet_of_isSet h.identifiers]
  rfl

theorem fits_json (depth : Nat) : Fits (depth + 6) o.json := by
  have imports : Fits (depth + 5) (array (o.imports.map Import.json)) :=
    fits_map fun i hi => Import.fits_json (h.imports i hi) _
  have classes : Fits (depth + 5) (array (o.classes.map ClassDef.json)) :=
    fits_map fun c hc => ClassDef.fits_json (h.classes c hc) _
  have functions : Fits (depth + 5) (array (o.functions.map FunctionDef.json)) :=
    fits_map fun f hf => FunctionDef.fits_json (h.functions f hf) _
  have chains : Fits (depth + 5) (array (o.chains.map Chain.json)) :=
    fits_map fun c hc => Chain.fits_json (h.chains c hc) _
  have instantiations : Fits (depth + 5) (array (o.instantiations.map Instantiation.json)) :=
    fits_map fun i hi => Instantiation.fits_json (h.instantiations i hi) _
  have numbers : Fits (depth + 5) (array (o.numbers.map NumberLiteral.json)) :=
    fits_map fun n hn => NumberLiteral.fits_json (h.numbers n hn) _
  have globalWrites : Fits (depth + 5) (array (o.globalWrites.map GlobalWrite.json)) :=
    fits_map fun g hg => GlobalWrite.fits_json (h.globalWrites g hg) _
  have error : Fits (depth + 5) (optional string o.error) := fits_optional fun s _ => .string s
  have errorLine : Fits (depth + 5) (optional natural o.errorLine) :=
    fits_optional fun n hn => .natural (h.errorLine n hn)
  refine .object ?_
  simp [h.lineCount, imports, classes, functions, chains, instantiations, numbers, globalWrites,
    error, errorLine]

end Outline

end ArchReview
