import ArchReview.Report.Document
import ArchReview.Report.Markdown
import Mathlib.Data.List.Infix

/-!
# Files that could not be read

The report lists the files that could not be read, and its printed forms are made from it.
Markdown tells of every one of them, and JSON has a record of every one, whatever the least severity
is.  The list of tasks does only beside a violation that is shown: without one its text is the same
for every list of errors (`Report.parseErrors_told`).

* `Json.Part`: the values inside a value; their texts are parts of its text
  (`Part.infix_compact`, `Part.infix_pretty`).
* `FileError.ToldIn.ofLines`: what a line tells, the text of the lines tells.
-/

namespace ArchReview

/-! ### Texts of JSON values -/

namespace Json

/-- A value and the values inside it. -/
inductive Part (v : Json) : Json → Prop where
  | self : Part v v
  | item {w : Json} {items : List Json} (h : w ∈ items) (hw : Part v w) : Part v (array items)
  | member {m : String × Json} {members : List (String × Json)} (h : m ∈ members)
      (hm : Part v m.2) : Part v (object members)

/-- A list that is written with commas between its pieces. -/
theorem eq_intercalate {α : Type} {write : List α → String} {piece : α → String}
    (hnil : write [] = "") (hlast : ∀ a, write [a] = piece a)
    (hmore : ∀ a b l, write (a :: b :: l) = piece a ++ "," ++ write (b :: l)) :
    ∀ l, write l = ",".intercalate (l.map piece)
  | [] => hnil
  | [a] => (hlast a).trans String.intercalate_singleton.symm
  | a :: b :: l => by
      rw [hmore, eq_intercalate hnil hlast hmore (b :: l)]
      exact String.intercalate_cons_cons.symm

theorem compactItems_eq (items : List Json) :
    compactItems items = ",".intercalate (items.map compact) :=
  eq_intercalate rfl (fun _ => rfl) (fun _ _ _ => rfl) items

theorem compactMembers_eq (members : List (String × Json)) :
    compactMembers members =
      ",".intercalate (members.map fun m => quoted m.1 ++ ":" ++ compact m.2) :=
  eq_intercalate rfl (fun _ => rfl) (fun _ _ _ => rfl) members

theorem prettyItems_eq (depth : Nat) (items : List Json) :
    prettyItems depth items =
      ",".intercalate (items.map fun v => newLine depth ++ prettyAt depth v) :=
  eq_intercalate rfl (fun _ => rfl) (fun _ _ _ => rfl) items

theorem prettyMembers_eq (depth : Nat) (members : List (String × Json)) :
    prettyMembers depth members =
      ",".intercalate (members.map fun m =>
        newLine depth ++ quoted m.1 ++ ": " ++ prettyAt depth m.2) :=
  eq_intercalate rfl (fun _ => rfl) (fun _ _ _ => rfl) members

theorem infix_intercalate (sep : String) {piece : String} : ∀ {pieces : List String},
    piece ∈ pieces → piece.toList <:+: (sep.intercalate pieces).toList
  | [p], h => by
      rw [List.mem_singleton.mp h, String.intercalate_singleton]
  | p :: p' :: pieces, h => by
      rw [String.intercalate_cons_cons, String.toList_append]
      rcases List.mem_cons.mp h with rfl | h
      · rw [String.toList_append, List.append_assoc]
        exact (List.prefix_append _ _).isInfix
      · exact (infix_intercalate sep h).trans (List.suffix_append _ _).isInfix

/-- A piece of a list stands in what is written around the list. -/
theorem infix_bracketed {α : Type} {l : List α} {a : α} (h : a ∈ l) (piece : α → String)
    (left right : String) :
    (piece a).toList <:+: (left ++ ",".intercalate (l.map piece) ++ right).toList := by
  rw [String.toList_append, String.toList_append]
  exact (infix_intercalate "," (List.mem_map_of_mem h)).trans (List.infix_append _ _ _)

theorem suffix_append_text (s t : String) : t.toList <:+ (s ++ t).toList := by
  rw [String.toList_append]
  exact List.suffix_append _ _

/-- The text of a value has those of the values inside it as parts. -/
theorem Part.infix_compact {v w : Json} (h : Part v w) :
    v.compact.toList <:+: w.compact.toList := by
  induction h with
  | self => exact List.infix_rfl
  | item h _ ih =>
      have inside := infix_bracketed h compact "[" "]"
      rw [compact, compactItems_eq]
      exact ih.trans inside
  | @member m _ h _ ih =>
      have inside := infix_bracketed h (fun m => quoted m.1 ++ ":" ++ compact m.2) "\x7b" "\x7d"
      have value := suffix_append_text (quoted m.1 ++ ":") m.2.compact
      rw [compact, compactMembers_eq]
      exact (ih.trans value.isInfix).trans inside

theorem prettyAt_array {items : List Json} (h : items ≠ []) (depth : Nat) :
    prettyAt depth (array items) =
      "[" ++ prettyItems (depth + 1) items ++ (newLine depth ++ "]") := by
  obtain ⟨v, vs, rfl⟩ := List.exists_cons_of_ne_nil h
  exact String.append_assoc

theorem prettyAt_object {members : List (String × Json)} (h : members ≠ []) (depth : Nat) :
    prettyAt depth (object members) =
      "\x7b" ++ prettyMembers (depth + 1) members ++ (newLine depth ++ "\x7d") := by
  obtain ⟨m, ms, rfl⟩ := List.exists_cons_of_ne_nil h
  exact String.append_assoc

/-- So has the indented text, where the parts have an indentation of their own. -/
theorem Part.infix_pretty {v w : Json} (h : Part v w) :
    ∀ depth, ∃ inner, (prettyAt inner v).toList <:+: (prettyAt depth w).toList := by
  induction h with
  | self => exact fun depth => ⟨depth, List.infix_rfl⟩
  | @item w _ h _ ih =>
      intro depth
      obtain ⟨inner, hinner⟩ := ih (depth + 1)
      have inside := infix_bracketed h (fun v => newLine (depth + 1) ++ prettyAt (depth + 1) v) "["
        (newLine depth ++ "]")
      have value := suffix_append_text (newLine (depth + 1)) (prettyAt (depth + 1) w)
      refine ⟨inner, ?_⟩
      rw [prettyAt_array (List.ne_nil_of_mem h), prettyItems_eq]
      exact (hinner.trans value.isInfix).trans inside
  | @member m _ h _ ih =>
      intro depth
      obtain ⟨inner, hinner⟩ := ih (depth + 1)
      have inside := infix_bracketed h
        (fun m => newLine (depth + 1) ++ quoted m.1 ++ ": " ++ prettyAt (depth + 1) m.2) "\x7b"
        (newLine depth ++ "\x7d")
      have value := suffix_append_text (newLine (depth + 1) ++ quoted m.1 ++ ": ")
        (prettyAt (depth + 1) m.2)
      refine ⟨inner, ?_⟩
      rw [prettyAt_object (List.ne_nil_of_mem h), prettyMembers_eq]
      exact (hinner.trans value.isInfix).trans inside

end Json

/-! ### Lines -/

namespace FileError

/-- A text names the file of an error, and behind it the message. -/
def ToldIn (e : FileError) (text : String) : Prop :=
  ∃ lead between tail : String, text = lead ++ e.path.text ++ between ++ e.message ++ tail

theorem ToldIn.infix_path {e : FileError} {text : String} (h : e.ToldIn text) :
    e.path.text.toList <:+: text.toList := by
  obtain ⟨lead, between, tail, rfl⟩ := h
  refine ⟨lead.toList, between.toList ++ e.message.toList ++ tail.toList, ?_⟩
  simp only [String.toList_append, List.append_assoc]

/-- What a line tells, the text tells. -/
theorem ToldIn.ofLines {e : FileError} {line : String} {lines : List String} (h : e.ToldIn line)
    (hline : line ∈ lines) : e.ToldIn (Report.ofLines lines) := by
  obtain ⟨lead, between, tail, rfl⟩ := h
  obtain ⟨before, after, rfl⟩ := List.append_of_mem hline
  refine ⟨Report.ofLines before ++ lead, between, tail ++ "\n" ++ Report.ofLines after, ?_⟩
  simp only [Report.ofLines, List.map_append, List.map_cons, String.join_append, String.join_cons,
    String.append_assoc]

end FileError

namespace Report

variable (r : Report) (least : Severity)

theorem mem_headed {line heading : String} {body : List String} (h : line ∈ body) :
    line ∈ headed heading body := by
  rw [headed, if_neg (by simpa using List.ne_nil_of_mem h)]
  exact List.mem_append_left _ (List.mem_append_right _ h)

theorem toldIn_errorLine (e : FileError) : e.ToldIn (errorLine e) := by
  unfold errorLine
  split
  · rename_i n _
    exact ⟨"- `", ":" ++ toString n ++ "`: ", "", by simp [toString, String.append_assoc]⟩
  · exact ⟨"- `", "`: ", "", by simp [toString, String.append_assoc]⟩

theorem toldIn_markdown {e : FileError} (h : e ∈ r.parseErrors) : e.ToldIn (r.markdown least) := by
  refine (toldIn_errorLine e).ofLines ?_
  have hline : errorLine e ∈ headed "## Parse Errors" (r.parseErrors.map errorLine) :=
    mem_headed (List.mem_map_of_mem h)
  exact List.mem_append_left _ (List.mem_append_left _ (List.mem_append_right _ hline))

/-- The record of an error is an item of a member of the document. -/
theorem part_document {e : FileError} (h : e ∈ r.parseErrors) : e.json.Part (r.document least) := by
  refine .member (m := ("parse_errors", .array (r.parseErrors.map FileError.json))) ?_
    (.item (List.mem_map_of_mem h) .self)
  simp [members]

theorem toldIn_tasks {e : FileError} (h : e ∈ r.parseErrors) (hshown : r.visible least ≠ []) :
    e.ToldIn (r.tasks least) := by
  have hline : (s!"- [ ] `{e.path.text}`: {e.message}") ∈ errorTasks r.parseErrors := by
    rw [errorTasks, if_neg (by simpa using List.ne_nil_of_mem h)]
    exact List.mem_append_right _ (List.mem_map_of_mem h)
  have told : e.ToldIn s!"- [ ] `{e.path.text}`: {e.message}" :=
    ⟨"- [ ] `", "`: ", "", by simp [toString, String.append_assoc]⟩
  refine told.ofLines ?_
  rw [if_neg (by simpa using hshown)]
  exact List.mem_append_right _ (List.mem_append_right _ hline)

theorem tasks_of_nothing_visible (h : r.visible least = []) :
    r.tasks least = "# Refactoring Tasks: " ++ r.projectName ++ "\n\nNothing to do.\n" := by
  simp [tasks, h, ofLines, toString, String.append_assoc]

end Report

/-- **Files that could not be read.**  Whatever the least severity is, Markdown tells of every one
of them, and JSON has a record of every one in its list of errors.  The list of tasks tells of them
beside a violation that it shows; without one, it says that there is nothing to do. -/
theorem Report.parseErrors_told (r : Report) (least : Severity) :
    (∀ e ∈ r.parseErrors, e.ToldIn (r.markdown least)) ∧
    (r.document least).member? "parse_errors" =
      some (.array (r.parseErrors.map FileError.json)) ∧
    (∀ e ∈ r.parseErrors, e.json.compact.toList <:+: (r.compactJson least).toList ∧
      ∃ depth, (e.json.prettyAt depth).toList <:+: (r.prettyJson least).toList) ∧
    (r.visible least ≠ [] → ∀ e ∈ r.parseErrors, e.ToldIn (r.tasks least)) ∧
    (r.visible least = [] →
      r.tasks least = "# Refactoring Tasks: " ++ r.projectName ++ "\n\nNothing to do.\n") := by
  refine ⟨fun e he => r.toldIn_markdown least he, rfl, fun e he => ⟨?_, ?_⟩,
    fun hshown e he => r.toldIn_tasks least he hshown, r.tasks_of_nothing_visible least⟩
  · rw [compactJson, String.toList_append]
    exact (r.part_document least he).infix_compact.trans (List.prefix_append _ _).isInfix
  · obtain ⟨depth, hdepth⟩ := (r.part_document least he).infix_pretty 0
    rw [prettyJson, String.toList_append]
    exact ⟨depth, hdepth.trans (List.prefix_append _ _).isInfix⟩

/-- A file that could not be read. -/
def brokenFile : FileError := ⟨⟨"a.py"⟩, some 1, "Syntax error at line 1: unexpected token"⟩

/-- A report on this file alone. -/
def brokenReport : Report :=
  { projectName := "demo", projectType := "Unknown", parseErrors := [brokenFile] }

/-- A report on this file beside one with a violation. -/
def mixedReport : Report :=
  { brokenReport with violations := [
      { rule := "PAT-001", category := .pattern, severity := .medium, title := "Long method: load"
        path := ⟨"b.py"⟩, line := some 3 }] }

/-- Both kinds of task lists occur: one tells of the file, the other says that all is done. -/
theorem Report.parseErrors_told_brokenFile :
    (mixedReport.visible .medium ≠ [] ∧ brokenFile.ToldIn (mixedReport.tasks .medium)) ∧
      mixedReport.visible .high = [] ∧
      mixedReport.tasks .high = "# Refactoring Tasks: demo\n\nNothing to do.\n" ∧
      brokenFile.ToldIn (mixedReport.markdown .high) := by
  have hmem : brokenFile ∈ mixedReport.parseErrors := List.mem_cons_self
  have hshown : mixedReport.visible .medium ≠ [] := List.cons_ne_nil _ _
  obtain ⟨-, -, -, tasks, -⟩ := mixedReport.parseErrors_told .medium
  obtain ⟨markdown, -, -, -, nothing⟩ := mixedReport.parseErrors_told .high
  exact ⟨⟨hshown, tasks hshown _ hmem⟩, rfl, nothing rfl, markdown _ hmem⟩

/-- A project none of whose files could be read gives a list of tasks without a word of them. -/
theorem Report.tasks_hide_brokenFile :
    brokenFile ∈ brokenReport.parseErrors ∧ ¬ brokenFile.ToldIn (brokenReport.tasks .low) := by
  refine ⟨List.mem_cons_self, fun told => ?_⟩
  have part := told.infix_path
  rw [brokenReport.tasks_of_nothing_visible .low rfl] at part
  revert part
  decide +kernel

end ArchReview
