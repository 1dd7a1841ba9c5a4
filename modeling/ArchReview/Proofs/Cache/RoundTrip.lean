import ArchReview.Cache.Document
import ArchReview.Proofs.Outline.Document
import ArchReview.Proofs.Path.Order

/-!
# Caches between runs

A cache is written with its entries by path and read by putting them in again.  A cache keeps one
entry to a path (`Storable.put`), so the entries that are read are those that were written, in
another order (`ofText_text`), and this order does not show: a path finds at most one entry
(`find?_eq_of_perm`).

**Round trip** (`ofText_text_answers`).  Whatever document a cache was read from and whatever
outlines were put into it, it has as many entries and gives the same answers after it was written
and read; what was put in last for a path is found.
-/

namespace ArchReview

open Json

/-! ### Entries -/

namespace CacheEntry

theorem storable_of_ofJson? {v : Json} {e : CacheEntry} (hv : v.Words) (h : ofJson? v = some e) :
    e.outline.Storable := by
  obtain ⟨fs, hfs, h⟩ := exists_of_bind h
  have words := words_of_fields? hv hfs
  iterate 2 obtain ⟨_, -, h⟩ := exists_of_bind h
  obtain ⟨outline, houtline, h⟩ := exists_of_bind h
  cases h
  obtain ⟨w, hw, hread⟩ := words.required? houtline
  exact Outline.storable_of_ofJson? hw hread

variable {e : CacheEntry} (h : e.outline.Storable)
include h

theorem ofJson?_json : ofJson? e.json = some e := by
  have fields : fields? fieldNames e.json = some _ := fields?_object rfl (by decide +kernel)
  refine bind_of_some fields ?_
  iterate 2 refine bind_of_some rfl ?_
  refine bind_of_some (required?_of_get? rfl (Outline.ofJson?_json h)) ?_
  rfl

theorem fits_json (depth : Nat) : Fits (depth + 7) e.json := by
  refine .object ?_
  simp [Outline.fits_json h depth]

end CacheEntry

namespace Cache

/-! ### One entry to a path -/

/-- No two entries have the same path. -/
def Distinct (entries : List CacheEntry) : Prop :=
  entries.Pairwise fun a b => ¬ a.path.same b.path = true

/-- One entry to a path, and outlines that can be stored. -/
structure Storable (c : Cache) : Prop where
  distinct : Distinct c.entries
  outlines : ∀ e ∈ c.entries, e.outline.Storable

theorem storable_empty : empty.Storable := ⟨.nil, nofun⟩

theorem put_of_unknown {c : Cache} {path : Path}
    (h : ∀ e ∈ c.entries, ¬ e.path.same path = true) (digest : String) (o : Outline) :
    c.put path digest o = ⟨c.entries ++ [⟨path, digest, o⟩]⟩ := by
  rw [put, if_neg (by simpa using h)]

theorem Storable.put {c : Cache} (h : c.Storable) (path : Path) (digest : String) {o : Outline}
    (ho : o.Storable) : (c.put path digest o).Storable := by
  by_cases known : c.entries.any (fun e => e.path.same path) = true
  · rw [Cache.put, if_pos known]
    have kept (e : CacheEntry) :
        (if e.path.same path then { e with digest, outline := o } else e).path = e.path := by
      split <;> rfl
    refine ⟨List.pairwise_map.mpr (h.distinct.imp fun {a b} hab => ?_), fun e he => ?_⟩
    · rw [kept, kept]
      exact hab
    · obtain ⟨old, hold, rfl⟩ := List.mem_map.mp he
      split
      · exact ho
      · exact h.outlines old hold
  · have unknown : ∀ e ∈ c.entries, ¬ e.path.same path = true := by simpa using known
    rw [put_of_unknown unknown]
    refine ⟨List.pairwise_append.mpr ⟨h.distinct, List.pairwise_singleton _ _, ?_⟩, ?_⟩
    · intro e he new hnew
      rw [List.mem_singleton.mp hnew]
      exact unknown e he
    · intro e he
      rcases List.mem_append.mp he with he | he
      · exact h.outlines e he
      · rw [List.mem_singleton.mp he]
        exact ho

/-- Some outlines, put in one after the other. -/
def putAll (c : Cache) (puts : List CacheEntry) : Cache :=
  puts.foldl (fun c e => c.put e.path e.digest e.outline) c

theorem putAll_append (c : Cache) (puts more : List CacheEntry) :
    c.putAll (puts ++ more) = (c.putAll puts).putAll more := List.foldl_append

theorem Storable.putAll {puts : List CacheEntry} (h : ∀ e ∈ puts, e.outline.Storable) :
    ∀ {c : Cache}, c.Storable → (c.putAll puts).Storable := by
  induction puts with
  | nil => exact fun hc => hc
  | cons e puts ih =>
      intro c hc
      refine ih (fun e' he' => h e' (List.mem_cons_of_mem _ he')) ?_
      exact hc.put e.path e.digest (h e List.mem_cons_self)

/-- Entries with different paths are put one behind the other. -/
theorem putAll_of_distinct {puts : List CacheEntry} :
    ∀ {c : Cache}, Distinct (c.entries ++ puts) → c.putAll puts = ⟨c.entries ++ puts⟩ := by
  induction puts with
  | nil =>
      intro c _
      rw [List.append_nil]
      rfl
  | cons e puts ih =>
      intro c h
      have unknown : ∀ a ∈ c.entries, ¬ a.path.same e.path = true := fun a ha =>
        (List.pairwise_append.mp h).2.2 a ha e List.mem_cons_self
      rw [List.append_cons] at h ⊢
      rw [putAll, List.foldl_cons, put_of_unknown unknown]
      exact ih h

/-! ### The order of entries -/

theorem eq_of_perm_of_alone {α : Type} {l l' : List α} (h : l.Perm l')
    (alone : l.Pairwise fun _ _ => False) : l = l' := by
  match l, alone with
  | [], _ => exact (List.nil_perm.mp h).symm
  | [a], _ => exact (List.singleton_perm.mp h)
  | a :: b :: l, alone => exact (List.rel_of_pairwise_cons alone List.mem_cons_self).elim

theorem Distinct.of_perm {entries others : List CacheEntry} (h : Distinct entries)
    (hperm : entries.Perm others) : Distinct others := by
  refine h.perm hperm fun {a b} hab hba => hab ?_
  exact Path.same_iff.mpr (Path.same_iff.mp hba).symm

theorem Storable.of_perm {c d : Cache} (h : c.Storable) (hperm : c.entries.Perm d.entries) :
    d.Storable :=
  ⟨h.distinct.of_perm hperm, fun e he => h.outlines e (hperm.mem_iff.mpr he)⟩

/-- A path has at most one entry, so it does not matter where this stands. -/
theorem find?_eq_of_perm {c d : Cache} (h : c.entries.Perm d.entries) (hc : Distinct c.entries)
    (path : Path) (digest : String) : c.find? path digest = d.find? path digest := by
  have alone : (c.entries.filter fun e => e.path.same path).Pairwise fun _ _ => False := by
    refine (hc.filter _).imp_of_mem fun {a b} ha hb hab => hab ?_
    have ha := Path.same_iff.mp (List.mem_filter.mp ha).2
    have hb := Path.same_iff.mp (List.mem_filter.mp hb).2
    exact Path.same_iff.mpr (ha.trans hb.symm)
  have found : c.entries.find? (fun e => e.path.same path) =
      d.entries.find? fun e => e.path.same path := by
    rw [← List.head?_filter, ← List.head?_filter, eq_of_perm_of_alone (h.filter _) alone]
  rw [find?, find?, found]

/-! ### Answers -/

/-- The entry of a path after remembering an outline. -/
theorem entry?_put (c : Cache) (path : Path) (digest : String) (o : Outline) (p : Path) :
    (c.put path digest o).entries.find? (fun e => e.path.same p) =
      (c.entries.find? fun e => e.path.same p).elim
        (if path.same p then some ⟨path, digest, o⟩ else none)
        fun e => some (if e.path.same path then { e with digest, outline := o } else e) := by
  by_cases known : c.entries.any (fun e => e.path.same path) = true
  · have kept (e : CacheEntry) :
        (if e.path.same path then { e with digest, outline := o } else e).path = e.path := by
      split <;> rfl
    rw [put, if_pos known, List.find?_map]
    simp only [Function.comp_def, kept]
    cases found : c.entries.find? fun e => e.path.same p with
    | some e => rfl
    | none =>
        -- some entry has `path`, but none has `p`
        obtain ⟨e, he, hsame⟩ := List.any_eq_true.mp known
        have apart : ¬ path.same p = true := fun h => by
          have hep := Path.same_iff.mpr ((Path.same_iff.mp hsame).trans (Path.same_iff.mp h))
          exact List.find?_eq_none.mp found e he hep
        rw [if_neg apart]
        rfl
  · have unknown : ∀ e ∈ c.entries, ¬ e.path.same path = true := by simpa using known
    rw [put_of_unknown unknown, List.find?_append]
    cases found : c.entries.find? fun e => e.path.same p with
    | some e => simp [unknown e (List.mem_of_find?_eq_some found)]
    | none => cases h : path.same p <;> simp [h]

/-- **A cache answers with the outline that was put in last for the path.** -/
theorem find?_put (c : Cache) (path : Path) (digest : String) (o : Outline) (p : Path)
    (key : String) :
    (c.put path digest o).find? p key =
      if path.same p then if digest == key then some o else none else c.find? p key := by
  rw [find?, entry?_put, find?]
  cases found : c.entries.find? fun e => e.path.same p with
  | none => cases path.same p <;> rfl
  | some e =>
      have he : e.path.same p = true := by simpa using List.find?_some found
      have alike : e.path.same path = path.same p := by
        rw [Path.same, Path.same, Path.same_iff.mp he, Bool.eq_iff_iff, beq_iff_eq, beq_iff_eq,
          eq_comm]
      rw [Option.elim_some, alike]
      cases path.same p <;> rfl

theorem find?_putAll_of_apart {p : Path} {puts : List CacheEntry}
    (h : ∀ e ∈ puts, ¬ e.path.same p = true) (key : String) :
    ∀ c : Cache, (c.putAll puts).find? p key = c.find? p key := by
  induction puts with
  | nil => exact fun _ => rfl
  | cons e puts ih =>
      intro c
      rw [putAll, List.foldl_cons]
      refine (ih (fun e' he' => h e' (List.mem_cons_of_mem _ he')) _).trans ?_
      rw [find?_put, if_neg (h e List.mem_cons_self)]

/-! ### Writing and reading -/

/-- **What is read is what was written, by path.** -/
theorem ofText_text {c : Cache} (h : c.Storable) :
    ofText c.text = ⟨c.entries.mergeSort fun a b => a.path.le b.path⟩ := by
  let sorted : Cache := ⟨c.entries.mergeSort fun a b => a.path.le b.path⟩
  have hsorted : sorted.Storable := h.of_perm (List.mergeSort_perm ..).symm
  -- nine brackets stand open around the type of a parameter, the deepest value there is
  have fits : Fits (118 + 9) c.json := by
    have number : IsWord version := by decide +kernel
    have entries := fits_map fun e he => CacheEntry.fits_json (hsorted.outlines e he) 118
    refine .object ?_
    simp [number, sorted, entries]
  have entries : entriesOf? c.json = some (version, sorted.entries) := by
    have fields : fields? ["version", "entries"] c.json = some _ :=
      fields?_object rfl (by decide +kernel)
    refine bind_of_some fields ?_
    refine bind_of_some rfl ?_
    refine bind_of_some (list?_map fun e he => CacheEntry.ofJson?_json (hsorted.outlines e he)) ?_
    rfl
  rw [ofText, text, parse?_compact fits]
  simp only [ofJson, entries]
  exact putAll_of_distinct (c := empty) hsorted.distinct

theorem perm_ofText_text {c : Cache} (h : c.Storable) :
    (ofText c.text).entries.Perm c.entries := by
  rw [ofText_text h]
  exact List.mergeSort_perm ..

/-- **What is read can be stored**, whatever the text. -/
theorem storable_ofText (document : String) : (ofText document).Storable := by
  rw [ofText]
  split
  · rename_i v hv
    have hwords := words_of_parse? hv
    rw [ofJson]
    split
    · rename_i n entries hentries
      split
      · obtain ⟨fs, hfs, hentries⟩ := exists_of_bind hentries
        have words := words_of_fields? hwords hfs
        obtain ⟨number, -, hentries⟩ := exists_of_bind hentries
        obtain ⟨read, hread, hentries⟩ := exists_of_bind hentries
        split at hentries
        · cases hentries
          exact storable_empty.putAll (words.list CacheEntry.storable_of_ofJson? hread)
        · cases hentries
      · exact storable_empty
    · exact storable_empty
  · exact storable_empty

/-- What was put in last for a path is found. -/
theorem find?_putAll_last (c : Cache) {earlier later : List CacheEntry} {e : CacheEntry}
    (hlater : ∀ e' ∈ later, ¬ e'.path.same e.path = true) {path : Path}
    (hpath : e.path.same path = true) :
    (c.putAll (earlier ++ e :: later)).find? path e.digest = some e.outline := by
  have apart : ∀ e' ∈ later, ¬ e'.path.same path = true := by
    intro e' he' hsame
    exact hlater e' he'
      (Path.same_iff.mpr ((Path.same_iff.mp hsame).trans (Path.same_iff.mp hpath).symm))
  rw [putAll_append]
  refine (find?_putAll_of_apart apart e.digest _).trans ?_
  rw [find?_put, if_pos hpath, if_pos (beq_self_eq_true _)]

/-- **Round trip.**  A cache that was read from any document and that some outlines were put into
has as many entries and gives the same answers after it was written and read.  What was put in last
for a path is found, all of it. -/
theorem ofText_text_answers (document : String) (puts : List CacheEntry)
    (h : ∀ e ∈ puts, e.outline.Storable) :
    let c := (ofText document).putAll puts
    (ofText c.text).size = c.size ∧
      (∀ path digest, (ofText c.text).find? path digest = c.find? path digest) ∧
      ∀ earlier e later, puts = earlier ++ e :: later →
        (∀ e' ∈ later, ¬ e'.path.same e.path = true) → ∀ path, e.path.same path = true →
          (ofText c.text).find? path e.digest = some e.outline := by
  intro c
  have hc : c.Storable := (storable_ofText document).putAll h
  have written := perm_ofText_text hc
  have answers (path : Path) (digest : String) :
      (ofText c.text).find? path digest = c.find? path digest :=
    (find?_eq_of_perm written.symm hc.distinct path digest).symm
  refine ⟨written.length_eq, answers, ?_⟩
  rintro earlier e later rfl hlater path hpath
  rw [answers]
  exact find?_putAll_last _ hlater hpath

/-- An outline with something of every kind. -/
def filledOutline : Outline where
  path := ⟨"src/a.ts"⟩
  language := .typeScript
  lineCount := 9
  imports := [⟨"./b", ["B"], ["B"], true, some ⟨"src/b"⟩, .reExport, ⟨"src/a.ts"⟩, 1⟩]
  classes := [{
    name := "A", startLine := 2, endLine := 8, bases := ["B"], methodCount := 1
    fieldsByMethod := [("run", ["x", "y"])]
    methods := [{
      name := "run", startLine := 3, endLine := 7, parameterCount := 2
      parameterTypes := [some "number", none], instanceFields := ["x", "y"] }] }]
  strings := ["\"quoted\"\n"]
  chains := [⟨4, 2, none, true, false⟩]
  instantiations := [⟨"B", 5, 1⟩]
  numbers := [⟨"42", 6, false⟩]
  identifiers := ["A", "B"]
  globalWrites := [⟨"g", "run", 7⟩]

theorem storable_filledOutline : filledOutline.Storable where
  lineCount := by decide +kernel
  imports := List.forall_mem_singleton.mpr (by decide +kernel : IsWord 1)
  classes := by
    refine List.forall_mem_singleton.mpr ⟨by decide +kernel, by decide +kernel, by decide +kernel,
      ⟨by decide +kernel, by decide +kernel⟩, ?_⟩
    exact List.forall_mem_singleton.mpr ⟨by decide +kernel, by decide +kernel, by decide +kernel,
      by decide +kernel, by decide +kernel⟩
  functions := nofun
  chains := List.forall_mem_singleton.mpr ⟨by decide +kernel, by decide +kernel⟩
  instantiations := List.forall_mem_singleton.mpr ⟨by decide +kernel, by decide +kernel⟩
  numbers := List.forall_mem_singleton.mpr (by decide +kernel : IsWord 6)
  identifiers := by decide +kernel
  globalWrites := List.forall_mem_singleton.mpr (by decide +kernel : IsWord 7)
  errorLine := nofun

/-- An outline is found under another spelling of its path. -/
theorem ofText_text_answers_filledOutline :
    let stored : CacheEntry := ⟨⟨"src/a.ts"⟩, "1f", filledOutline⟩
    let other : CacheEntry := ⟨⟨"src/b.ts"⟩, "2e", filledOutline⟩
    let c := (ofText "\x7b\x7d").putAll [stored, other]
    filledOutline.Storable ∧ (ofText c.text).size = c.size ∧
      (ofText c.text).find? ⟨"src/./a.ts"⟩ "1f" = some filledOutline := by
  intro stored other c
  have outcome := ofText_text_answers "\x7b\x7d" [stored, other]
    (by simp [stored, other, storable_filledOutline])
  refine ⟨storable_filledOutline, outcome.1, ?_⟩
  exact outcome.2.2 [] stored [other] rfl (by decide +kernel) ⟨"src/./a.ts"⟩ (by decide +kernel)

end Cache

end ArchReview
