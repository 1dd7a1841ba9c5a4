import ArchReview.Proofs.Path.Join

/-!
# Names at the end of a path

A path is *tidy* when its text is that of its steps.  Normal forms are tidy, and tidy paths are
equal when they are the same path (`Tidy.eq_of_same`).  To a tidy path a further step is joined by
writing it behind a separator (`Tidy.components_join`).

A tidy path with a name at its end is its directory joined with the name.  Setting an extension
replaces what follows the last dot of the name (`Tidy.withExtension_eq`); only if the name has no
extension is this the same as writing the new one behind it (`Whole.withExtension_eq`).
-/

namespace ArchReview.Path
open Resolver (addExtension)

/-! ### Tidy paths -/

/-- Steps that are read as they are written: plain ones, perhaps after a root. -/
def Legible (steps : List Component) : Prop :=
  (∀ c ∈ steps, c.Plain) ∨ ∃ rest, steps = .root :: rest ∧ ∀ c ∈ rest, c.Plain

namespace Legible

theorem components_ofComponents {steps : List Component} (h : Legible steps) :
    (ofComponents steps).components = steps := by
  rcases h with plain | ⟨rest, rfl, plain⟩
  · exact Path.components_ofComponents plain
  · exact components_ofComponents_root plain

theorem concat {steps : List Component} (h : Legible steps) {n : String}
    (hn : (Component.name n).Plain) : Legible (steps ++ [.name n]) := by
  have last : ∀ c ∈ [Component.name n], c.Plain := by simpa using hn
  rcases h with plain | ⟨rest, rfl, plain⟩
  · exact Or.inl (List.forall_mem_append.mpr ⟨plain, last⟩)
  · exact Or.inr ⟨rest ++ [.name n], rfl, List.forall_mem_append.mpr ⟨plain, last⟩⟩

theorem dropLast {steps : List Component} (h : Legible steps) : Legible steps.dropLast := by
  rcases h with plain | ⟨rest, rfl, plain⟩
  · exact Or.inl fun c hc => plain c (List.dropLast_subset _ hc)
  · cases rest with
    | nil => exact Or.inl fun c hc => absurd hc List.not_mem_nil
    | cons c rest => exact Or.inr ⟨_, rfl, fun d hd => plain d (List.dropLast_subset _ hd)⟩

theorem plain_of_name_mem {steps : List Component} (h : Legible steps) {n : String}
    (hn : .name n ∈ steps) : (Component.name n).Plain := by
  rcases h with plain | ⟨rest, rfl, plain⟩
  · exact plain _ hn
  · exact plain _ ((List.mem_cons.mp hn).resolve_left Component.noConfusion)

end Legible

/-- The text of the path is that of its steps. -/
structure Tidy (p : Path) : Prop where
  legible : Legible p.components
  spelled : ofComponents p.components = p

theorem Legible.tidy {steps : List Component} (h : Legible steps) : (ofComponents steps).Tidy where
  legible := by rwa [h.components_ofComponents]
  spelled := by rw [h.components_ofComponents]

theorem tidy_normalize (p : Path) : p.normalize.Tidy where
  legible := by
    have plain : ∀ c ∈ p.normalSteps.reverse, c.Plain := fun c hc =>
      plain_of_mem_normalSteps c (List.mem_reverse.mp hc)
    rw [components_normalize]
    split
    · exact Or.inr ⟨_, rfl, plain⟩
    · exact Or.inl plain
  spelled := by rw [components_normalize, normalize]

namespace Tidy

/-- Tidy paths have one spelling each. -/
theorem eq_of_same {p q : Path} (hp : p.Tidy) (hq : q.Tidy) (h : p.same q = true) : p = q := by
  rw [← hp.spelled, ← hq.spelled, same_iff.mp h]

theorem directory {p : Path} (hp : p.Tidy) : p.directory.Tidy := hp.legible.dropLast.tidy

end Tidy

/-! ### Joining a name -/

theorem isAbsolute_name {n : String} (hn : (Component.name n).Plain) :
    (⟨n⟩ : Path).isAbsolute = false := by
  cases e : n.toList with
  | nil => exact absurd e hn.1
  | cons c cs =>
      have : c ≠ '/' := by
        rintro rfl
        exact hn.2.2.2 (e ▸ List.mem_cons_self)
      simp [isAbsolute, e, this]

/-- What stands before a joined path does not depend on it. -/
theorem exists_join_eq (p : Path) :
    ∃ lead : String, ∀ q : Path, q.isAbsolute = false → p.join q = ⟨lead ++ q.text⟩ := by
  unfold join
  cases p.text.toList.getLast? with
  | none => exact ⟨"", fun q hq => by simp [hq]⟩
  | some c =>
      by_cases h : c = '/'
      · exact ⟨p.text, fun q hq => by simp [hq, h]⟩
      · exact ⟨p.text ++ "/", fun q hq => by simp [hq]⟩

/-- Joined to one path, different paths stay different. -/
theorem join_right_inj {p q r : Path} (hq : q.isAbsolute = false) (hr : r.isAbsolute = false)
    (h : p.join q = p.join r) : q = r := by
  obtain ⟨lead, join_eq⟩ := p.exists_join_eq
  rw [join_eq q hq, join_eq r hr] at h
  have texts := congrArg (fun p => p.text.toList) h
  simp only [String.toList_append, List.append_cancel_left_eq] at texts
  exact congrArg Path.mk (String.toList_injective texts)

/-- The text of plain steps does not end in a separator. -/
theorem getLast?_text {steps : List Component} (plain : ∀ c ∈ steps, c.Plain) (hne : steps ≠ []) :
    ∃ c, c ≠ '/' ∧ ("/".intercalate (steps.map Component.text)).toList.getLast? = some c := by
  obtain ⟨init, last, rfl⟩ := (List.eq_nil_or_concat' steps).resolve_left hne
  have hlast := plain last (by simp)
  have ends : ("/".intercalate ((init ++ [last]).map Component.text)).toList.getLast? =
      (piece last).getLast? := by
    have hp : piece last ≠ [] := (piece_ne hlast).1
    cases init with
    | nil => simp [piece]
    | cons c init =>
        rw [List.map_append, String.intercalate_append_of_ne_nil (by simp) (by simp)]
        simp only [List.map_cons, List.map_nil, String.intercalate_singleton, String.toList_append]
        exact List.getLast?_append_of_ne_nil _ hp
  obtain ⟨c, hc⟩ := Option.ne_none_iff_exists'.mp
    (mt List.getLast?_eq_none_iff.mp (piece_ne hlast).1)
  refine ⟨c, ?_, ends.trans hc⟩
  rintro rfl
  exact slash_not_mem_piece hlast (List.mem_of_getLast? hc)

theorem join_of_getLast? {p q : Path} {c : Char} (hc : c ≠ '/')
    (h : p.text.toList.getLast? = some c) (hq : q.isAbsolute = false) :
    p.join q = ⟨p.text ++ "/" ++ q.text⟩ := by
  simp [join, hq, h]

/-- A further step is written behind a separator. -/
theorem Legible.ofComponents_concat {steps : List Component} (h : Legible steps) {n : String}
    (hn : (Component.name n).Plain) :
    ofComponents (steps ++ [.name n]) = (ofComponents steps).join ⟨n⟩ := by
  have relative := isAbsolute_name hn
  rcases h with plain | ⟨rest, rfl, plain⟩
  · by_cases hne : steps = []
    · subst hne
      simp [ofComponents, join, relative, Component.text]
    · obtain ⟨c, hc, last⟩ := getLast?_text plain hne
      have all : ∀ c ∈ steps ++ [.name n], c.Plain :=
        List.forall_mem_append.mpr ⟨plain, by simpa using hn⟩
      have ends : (ofComponents steps).text.toList.getLast? = some c := by
        rwa [ofComponents_eq plain]
      rw [join_of_getLast? hc ends relative, ofComponents_eq plain, ofComponents_eq all,
        List.map_append, String.intercalate_append_of_ne_nil (by simpa using hne) (by simp)]
      simp [Component.text]
  · by_cases hne : rest = []
    · subst hne
      simp [ofComponents, join, relative, Component.text]
    · obtain ⟨c, hc, last⟩ := getLast?_text plain hne
      have ends : (ofComponents (.root :: rest)).text.toList.getLast? = some c := by
        rw [ofComponents, String.toList_append, List.getLast?_append, last]
        rfl
      rw [join_of_getLast? hc ends relative, List.cons_append, ofComponents, ofComponents,
        List.map_append, String.intercalate_append_of_ne_nil (by simpa using hne) (by simp)]
      simp [Component.text, String.append_assoc]

namespace Tidy

variable {p : Path} (hp : p.Tidy)
include hp

theorem ofComponents_concat {n : String} (hn : (Component.name n).Plain) :
    ofComponents (p.components ++ [.name n]) = p.join ⟨n⟩ := by
  rw [hp.legible.ofComponents_concat hn, hp.spelled]

theorem join {n : String} (hn : (Component.name n).Plain) : (p.join ⟨n⟩).Tidy := by
  rw [← hp.ofComponents_concat hn]
  exact (hp.legible.concat hn).tidy

theorem components_join {n : String} (hn : (Component.name n).Plain) :
    (p.join ⟨n⟩).components = p.components ++ [.name n] := by
  rw [← hp.ofComponents_concat hn, (hp.legible.concat hn).components_ofComponents]

end Tidy

/-! ### Cutting a name at its last dot -/

/-- A name without an extension is left whole; else it is its stem, a dot and its extension. -/
theorem cutName_cases (name : String) :
    cutName name = (name, none) ∨
      ∃ stem ext, cutName name = (stem, some ext) ∧ name = stem ++ "." ++ ext ∧
        '.' ∉ ext.toList := by
  unfold cutName
  dsimp only
  split
  · exact Or.inl rfl
  · rename_i h
    have longer : (name.toList.reverse.takeWhile (· != '.')).length ≠ name.toList.length := by
      simp only [Bool.or_eq_true, not_or, beq_iff_eq, List.length_reverse] at h
      exact h.1.1
    -- the characters behind the last dot, and what is left in front of them
    have parts := List.takeWhile_append_dropWhile (p := (· != '.')) (l := name.toList.reverse)
    cases e : name.toList.reverse.dropWhile (· != '.') with
    | nil =>
        rw [e, List.append_nil] at parts
        exact absurd (by rw [parts, List.length_reverse]) longer
    | cons c front =>
        have dot : c = '.' := by
          have := List.head?_dropWhile_not (· != '.') name.toList.reverse
          simpa [e] using this
        rw [e, dot] at parts
        have whole := congrArg List.reverse parts
        rw [List.reverse_reverse, List.reverse_append, List.reverse_cons] at whole
        set ext := name.toList.reverse.takeWhile (· != '.')
        have stem : name.toList.take (name.toList.length - ext.reverse.length - 1) =
            front.reverse := by
          have len : name.toList.length - ext.reverse.length - 1 = front.reverse.length := by
            rw [← whole]
            simp only [List.length_append, List.length_reverse, List.length_singleton]
            omega
          rw [len, ← whole, List.append_assoc, List.take_left]
        refine Or.inr ⟨_, _, rfl, String.toList_injective ?_, fun hdot => ?_⟩
        · simp only [String.toList_append, String.toList_ofList, stem]
          exact whole.symm
        · rw [String.toList_ofList, List.mem_reverse] at hdot
          exact absurd (List.all_eq_true.mp List.all_takeWhile '.' hdot) (by decide)

theorem slash_not_mem_cutName {name : String} (h : '/' ∉ name.toList) :
    '/' ∉ (cutName name).1.toList := by
  rcases cutName_cases name with e | ⟨stem, ext, e, rfl, -⟩
  · rwa [e]
  · rw [e]
    intro hm
    exact h (by simp [hm])

/-- A name with an extension of two characters or more can stand between separators. -/
theorem plain_extended {stem ext : String} (hs : '/' ∉ stem.toList) (he : '/' ∉ ext.toList)
    (hlen : 2 ≤ ext.toList.length) : (Component.name (stem ++ "." ++ ext)).Plain := by
  have len : 3 ≤ (stem ++ "." ++ ext).toList.length := by
    simp only [String.toList_append, List.length_append]
    have : ".".toList.length = 1 := rfl
    omega
  refine ⟨?_, ?_, ?_, ?_⟩
  · intro h; simp [h] at len
  · intro h; simp [h] at len
  · intro h; simp [h] at len
  · simp [hs, he]

/-! ### Setting the extension -/

/-- The path ends in a name without an extension. -/
def Whole (p : Path) : Prop := p.fileName? ≠ none ∧ p.extension? = none

instance (p : Path) : Decidable p.Whole := inferInstanceAs (Decidable (_ ∧ _))

theorem withExtension_of_fileName?_eq_none {p : Path} (h : p.fileName? = none) (ext : String) :
    p.withExtension ext = p := by
  simp [withExtension, stem?, h]

/-- An extension is added to the name that was joined last. -/
theorem addExtension_join (p : Path) {n ext : String} (hn : (Component.name n).Plain)
    (he : (Component.name (n ++ "." ++ ext)).Plain) :
    addExtension (p.join ⟨n⟩) ext = p.join ⟨n ++ "." ++ ext⟩ := by
  obtain ⟨lead, join_eq⟩ := p.exists_join_eq
  rw [join_eq _ (isAbsolute_name hn), join_eq _ (isAbsolute_name he), addExtension]
  simp only [String.append_assoc]

theorem whole_iff {p : Path} : p.Whole ↔ ∃ s, p.fileName? = some s ∧ cutName s = (s, none) := by
  unfold Whole extension?
  cases h : p.fileName? with
  | none => simp
  | some s =>
      rcases cutName_cases s with e | ⟨stem, ext, e, -, -⟩ <;> simp [e]

section FileName

variable {p : Path} (hp : p.Tidy) {s : String} (hs : p.fileName? = some s)
include hp hs

theorem Tidy.plain_fileName : (Component.name s).Plain :=
  hp.legible.plain_of_name_mem (by rw [components_of_fileName hs]; simp)

/-- A path with a name at its end is its directory joined with the name. -/
theorem Tidy.directory_join : p.directory.join ⟨s⟩ = p := by
  rw [← hp.directory.ofComponents_concat (hp.plain_fileName hs), ← components_of_fileName hs,
    hp.spelled]

variable {ext : String} (he : '/' ∉ ext.toList) (hlen : 2 ≤ ext.toList.length)
include he hlen

theorem Tidy.plain_replaced : (Component.name ((cutName s).1 ++ "." ++ ext)).Plain :=
  plain_extended (slash_not_mem_cutName (hp.plain_fileName hs).2.2.2) he hlen

/-- A new extension is written behind the stem of the name. -/
theorem Tidy.withExtension_eq :
    p.withExtension ext = p.directory.join ⟨(cutName s).1 ++ "." ++ ext⟩ := by
  have plain := hp.plain_replaced hs he hlen
  have stem : p.stem? = some (cutName s).1 := by rw [stem?, hs]; rfl
  have hne : ext ≠ "" := by rintro rfl; simp at hlen
  rw [← hp.directory.ofComponents_concat plain, components_directory, withExtension, stem]
  simp [hne]

/-- An added extension is written behind all of the name. -/
theorem Tidy.addExtension_eq : addExtension p ext = p.directory.join ⟨s ++ "." ++ ext⟩ := by
  have plain := hp.plain_fileName hs
  have extended := plain_extended plain.2.2.2 he hlen
  rw [← addExtension_join p.directory plain extended, hp.directory_join hs]

end FileName

/-- Behind a name without an extension, setting one and adding one are the same. -/
theorem Whole.withExtension_eq {p : Path} (hw : p.Whole) (hp : p.Tidy) {ext : String}
    (he : '/' ∉ ext.toList) (hlen : 2 ≤ ext.toList.length) :
    p.withExtension ext = addExtension p ext := by
  obtain ⟨s, hs, cut⟩ := whole_iff.mp hw
  rw [hp.withExtension_eq hs he hlen, hp.addExtension_eq hs he hlen, cut]

/-! ### Joined names -/

/-- A name is joined to a normal form. -/
theorem normalize_join_name (p : Path) {n : String} (hn : (Component.name n).Plain) :
    (p.join ⟨n⟩).normalize = p.normalize.join ⟨n⟩ := by
  have relative := isAbsolute_name hn
  have steps : spelledSteps n.toList = [.name n] := by
    have := @stepsOf_splitWhere_intercalate [.name n] (by simpa using hn)
    simpa [spelledSteps, Component.text] using this
  refine (tidy_normalize _).eq_of_same (p.tidy_normalize.join hn) (same_iff.mpr ?_)
  rw [p.tidy_normalize.components_join hn, components_normalize, components_normalize,
    isAbsolute_join relative, normalSteps_join relative, steps]
  split <;> simp [normalStep]

end ArchReview.Path
