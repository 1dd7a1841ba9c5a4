import ArchReview.Json.Read
import ArchReview.Json.Write
import Mathlib.Data.List.TakeWhile
import Mathlib.Data.Nat.Init

/-!
# JSON texts are read back

`value?` reads one value off the front of a text.  What `compact` writes is read back as the value
it was written for (`value?_compact`), whatever follows, as long as this does not go on with a
number.  The proof follows how a value is built (`Fits`): no floating-point numbers, whole numbers
of a machine word and no deeper than the reader goes.

The reader counts its steps.  A value is read in twice as many steps as it has characters: each
item of an array takes one step besides its own, and has a comma or a bracket behind it.

The other way round, the natural numbers in whatever is read are machine words (`words_of_parse?`).
-/

namespace ArchReview.Json

/-- A number that a machine word can hold. -/
def IsWord (n : Nat) : Prop := n < Nat.pow 2 64

instance (n : Nat) : Decidable (IsWord n) := inferInstanceAs (Decidable (n < Nat.pow 2 64))

/-- The values that are read back where `depth` brackets may be opened. -/
inductive Fits : Nat → Json → Prop where
  | null {depth : Nat} : Fits depth null
  | bool {depth : Nat} (b : Bool) : Fits depth (bool b)
  | natural {depth n : Nat} (h : IsWord n) : Fits depth (natural n)
  | string {depth : Nat} (s : String) : Fits depth (string s)
  | array {depth : Nat} {items : List Json} (h : ∀ v ∈ items, Fits depth v) :
      Fits (depth + 1) (array items)
  | object {depth : Nat} {members : List (String × Json)} (h : ∀ m ∈ members, Fits depth m.2) :
      Fits (depth + 1) (object members)

theorem skip_cons {c : Char} (h : isSpace c = false) (cs : List Char) :
    skip (c :: cs) = c :: cs := by
  rw [skip, List.dropWhile_cons_of_neg (by simp [h])]

/-! ### Strings -/

theorem hexFour?_control : ∀ n < 32,
    hexFour? '0' '0' (hexDigit (n / 16)) (hexDigit (n % 16)) = some n := by
  decide +kernel

theorem stringTail_plain {c : Char} (hquote : c ≠ '"') (hslash : c ≠ '\\') (hplain : ¬ c.toNat < 32)
    (read cs : List Char) : stringTail read (c :: cs) = stringTail (c :: read) cs := by
  rw [stringTail.eq_def]
  split
  · rename_i e
    exact absurd (List.cons.inj e).1 hquote
  · rename_i e
    exact absurd (List.cons.inj e).1 hslash
  · rename_i e
    exact absurd (List.cons.inj e).1 hslash
  · rename_i e
    obtain ⟨rfl, rfl⟩ := List.cons.inj e
    rw [if_neg (by simp [hslash, hplain])]
  · rename_i e
    cases e

/-- The text of a character is read back. -/
theorem stringTail_escape (read : List Char) (c : Char) (cs : List Char) :
    stringTail read (escape c ++ cs) = stringTail (c :: read) cs := by
  unfold escape
  split
  iterate 7 rfl
  rename_i hquote hslash _ _ _ _ _
  -- any other character stands for itself, unless it is a control character
  split
  · rename_i hcontrol
    have hhex := hexFour?_control c.toNat hcontrol
    have hlow : ¬ 0xDC00 ≤ c.toNat := by omega
    have hhigh : ¬ 0xD800 ≤ c.toNat := by omega
    simp [stringTail, hhex, hlow, hhigh]
  · rename_i hplain
    exact stringTail_plain hquote hslash hplain read cs

theorem stringTail_flatMap_escape (s : List Char) : ∀ (read cs : List Char),
    stringTail read (s.flatMap escape ++ '"' :: cs) =
      some (String.ofList (read.reverse ++ s), cs) := by
  induction s with
  | nil =>
      intro read cs
      simp [stringTail]
  | cons c s ih =>
      intro read cs
      rw [List.flatMap_cons, List.append_assoc, stringTail_escape, ih]
      simp

theorem toList_quoted (s : String) :
    (quoted s).toList = '"' :: (s.toList.flatMap escape ++ ['"']) := String.toList_ofList

/-- A quoted text is read back. -/
theorem stringTail_quoted (s : String) (cs : List Char) :
    stringTail [] (s.toList.flatMap escape ++ ['"'] ++ cs) = some (s, cs) := by
  rw [List.append_assoc, List.singleton_append, stringTail_flatMap_escape]
  simp

/-! ### Numbers -/

/-- A text that does not go on with a number. -/
def Stops (rest : List Char) : Prop :=
  ∀ c ∈ rest.head?, c.isDigit = false ∧ c ≠ '.' ∧ c ≠ 'e' ∧ c ≠ 'E'

theorem stops_nil : Stops [] := nofun

theorem stops_comma (rest : List Char) : Stops (',' :: rest) := by
  rintro _ ⟨⟩
  decide

theorem stops_bracket (rest : List Char) : Stops (']' :: rest) := by
  rintro _ ⟨⟩
  decide

theorem stops_brace (rest : List Char) : Stops ('\x7d' :: rest) := by
  rintro _ ⟨⟩
  decide

/-- Only zero starts with a zero. -/
theorem eq_zero_of_toDigits {n : Nat} :
    ∀ {ds : List Char}, Nat.toDigits 10 n = '0' :: ds → n = 0 := by
  have digit : ∀ d < 10, d.digitChar = '0' → d = 0 := by decide
  induction n using Nat.strongRecOn with
  | ind n ih =>
      intro ds h
      rw [Nat.toDigits_eq_if (by decide)] at h
      split at h
      · rename_i hn
        exact digit n hn (List.cons.inj h).1
      · obtain ⟨c, cs, e⟩ := List.exists_cons_of_ne_nil (@Nat.toDigits_ne_nil (n / 10) 10)
        rw [e, List.cons_append] at h
        have := ih (n / 10) (by omega) ((List.cons.inj h).1 ▸ e)
        omega

/-- A number starts with a digit. -/
theorem exists_toDigits (n : Nat) : ∃ c cs, Nat.toDigits 10 n = c :: cs ∧ c.isDigit = true := by
  obtain ⟨c, cs, e⟩ := List.exists_cons_of_ne_nil (@Nat.toDigits_ne_nil n 10)
  exact ⟨c, cs, e,
    Nat.isDigit_of_mem_toDigits (by decide) (by decide) (e ▸ List.mem_cons_self)⟩

/-- All digits of a number are taken, and no more. -/
theorem spanWhole_toDigits (n : Nat) {rest : List Char} (h : Stops rest) :
    spanWhole (Nat.toDigits 10 n ++ rest) = some (Nat.toDigits 10 n, rest) := by
  have digits : ∀ c ∈ Nat.toDigits 10 n, c.isDigit = true := fun c hc =>
    Nat.isDigit_of_mem_toDigits (by decide) (by decide) hc
  have stop : rest.takeWhile Char.isDigit = [] ∧ rest.dropWhile Char.isDigit = rest := by
    cases rest with
    | nil => exact ⟨rfl, rfl⟩
    | cons c rest =>
        have hc := (h c rfl).1
        exact ⟨List.takeWhile_cons_of_neg (by simp [hc]), List.dropWhile_cons_of_neg (by simp [hc])⟩
  have taken : (Nat.toDigits 10 n ++ rest).takeWhile Char.isDigit = Nat.toDigits 10 n := by
    rw [List.takeWhile_append_of_pos digits, stop.1, List.append_nil]
  have left : (Nat.toDigits 10 n ++ rest).dropWhile Char.isDigit = rest := by
    rw [List.dropWhile_append_of_pos digits, stop.2]
  obtain ⟨c, cs, e, hc⟩ := exists_toDigits n
  -- a zero in front is taken alone, and it is all there is
  by_cases hzero : c = '0'
  · rw [hzero] at e
    obtain rfl := eq_zero_of_toDigits e
    rfl
  · rw [e, List.cons_append] at taken left ⊢
    unfold spanWhole
    split
    · rename_i e'
      exact absurd (List.cons.inj e').1 hzero
    · rename_i e'
      obtain ⟨rfl, rfl⟩ := List.cons.inj e'
      rw [if_pos hc, taken, left]
    · rename_i e'
      cases e'

theorem spanFraction_of_stops {rest : List Char} (h : Stops rest) :
    spanFraction rest = some ([], rest) := by
  unfold spanFraction
  split
  · exact absurd rfl (h '.' rfl).2.1
  · rfl

theorem spanPower_of_stops {rest : List Char} (h : Stops rest) :
    spanPower rest = some ([], rest) := by
  unfold spanPower
  split
  · rename_i c rest
    obtain ⟨-, -, he, hE⟩ := h c rfl
    rw [if_neg (by simp [he, hE])]
  · rfl

theorem spanSign_of_isDigit {c : Char} (h : c.isDigit = true) (cs : List Char) :
    spanSign (c :: cs) = (false, c :: cs) := by
  unfold spanSign
  split
  · rename_i e
    rw [(List.cons.inj e).1] at h
    cases h
  · rfl

/-- The digits of a number are read back. -/
theorem number?_toDigits {n : Nat} (hn : IsWord n) {rest : List Char} (h : Stops rest) :
    number? (Nat.toDigits 10 n ++ rest) = some (natural n, rest) := by
  have value : Decimal.digitValue (Nat.toDigits 10 n) = n :=
    Nat.ofDigitChars_toDigits (by decide) (by decide)
  have unsigned : spanSign (Nat.toDigits 10 n ++ rest) = (false, Nat.toDigits 10 n ++ rest) := by
    obtain ⟨c, cs, e, hc⟩ := exists_toDigits n
    rw [e]
    exact spanSign_of_isDigit hc _
  have small : n < Nat.pow 2 64 := hn
  simp [number?, unsigned, spanWhole_toDigits n h, spanFraction_of_stops h, spanPower_of_stops h,
    value, small]

/-! ### Values -/

theorem isSpace_of_isDigit {c : Char} (h : c.isDigit = true) : isSpace c = false := by
  rw [Bool.eq_false_iff]
  intro hspace
  simp only [isSpace, Bool.or_eq_true, beq_iff_eq] at hspace
  rcases hspace with ((rfl | rfl) | rfl) | rfl <;> cases h

/-- What starts with a digit is a number. -/
theorem value?_of_isDigit {c : Char} (h : c.isDigit = true) (fuel depth : Nat) (cs : List Char) :
    value? (fuel + 1) depth (c :: cs) = number? (c :: cs) := by
  rw [value?, skip_cons (isSpace_of_isDigit h)]
  split
  case h_7 => rfl
  all_goals
    rename_i e
    rw [(List.cons.inj e).1] at h
    cases h

theorem toList_natural (n : Nat) : (compact (natural n)).toList = Nat.toDigits 10 n :=
  Nat.toList_repr

theorem toList_string (s : String) :
    (compact (string s)).toList = '"' :: (s.toList.flatMap escape ++ ['"']) := toList_quoted s

theorem toList_array (items : List Json) :
    (compact (array items)).toList = '[' :: ((compactItems items).toList ++ [']']) := by
  simp [compact]

theorem toList_object (members : List (String × Json)) :
    (compact (object members)).toList =
      '\x7b' :: ((compactMembers members).toList ++ ['\x7d']) := by
  simp [compact]

theorem toList_items (v w : Json) (items : List Json) :
    (compactItems (v :: w :: items)).toList =
      v.compact.toList ++ ',' :: (compactItems (w :: items)).toList := by
  simp [compactItems]

theorem toList_member (k : String) (v : Json) :
    (compactMembers [(k, v)]).toList = (quoted k).toList ++ ':' :: v.compact.toList := by
  simp [compactMembers]

theorem toList_members (k : String) (v : Json) (m : String × Json)
    (members : List (String × Json)) :
    (compactMembers ((k, v) :: m :: members)).toList =
      (compactMembers [(k, v)]).toList ++ ',' :: (compactMembers (m :: members)).toList := by
  simp [compactMembers]

/-- The text of a value starts with a character that is neither a blank nor a closing bracket. -/
theorem Fits.exists_start {depth : Nat} {v : Json} (h : Fits depth v) :
    ∃ c cs, v.compact.toList = c :: cs ∧ isSpace c = false ∧ c ≠ ']' := by
  cases h with
  | null => exact ⟨'n', _, rfl, rfl, by decide⟩
  | bool b =>
      cases b with
      | true => exact ⟨'t', _, rfl, rfl, by decide⟩
      | false => exact ⟨'f', _, rfl, rfl, by decide⟩
  | natural h =>
      rename_i n
      obtain ⟨c, cs, e, hc⟩ := exists_toDigits n
      refine ⟨c, cs, (toList_natural n).trans e, isSpace_of_isDigit hc, ?_⟩
      rintro rfl
      cases hc
  | string s => exact ⟨'"', _, toList_string s, rfl, by decide⟩
  | array h => exact ⟨'[', _, toList_array _, rfl, by decide⟩
  | object h => exact ⟨'\x7b', _, toList_object _, rfl, by decide⟩

theorem exists_start_items {depth : Nat} {v : Json} (h : Fits depth v) (items : List Json) :
    ∃ c cs, (compactItems (v :: items)).toList = c :: cs ∧ isSpace c = false ∧ c ≠ ']' := by
  obtain ⟨c, cs, e, hc⟩ := h.exists_start
  cases items with
  | nil => exact ⟨c, cs, e, hc⟩
  | cons w items =>
      refine ⟨c, cs ++ ',' :: (compactItems (w :: items)).toList, ?_, hc⟩
      rw [toList_items, e, List.cons_append]

theorem exists_start_members (m : String × Json) (members : List (String × Json)) :
    ∃ cs, (compactMembers (m :: members)).toList = '"' :: cs := by
  cases members with
  | nil => exact ⟨_, by rw [toList_member, toList_quoted, List.cons_append]⟩
  | cons m' members =>
      exact ⟨_, by
        rw [toList_members, toList_member, toList_quoted, List.cons_append, List.cons_append]⟩

/-- The text of a value is read back, whatever follows. -/
def ReadBack (depth : Nat) (v : Json) : Prop :=
  ∀ (rest : List Char) (fuel : Nat), Stops rest → 2 * v.compact.toList.length ≤ fuel →
    value? fuel depth (v.compact.toList ++ rest) = some (v, rest)

theorem items?_compactItems {depth : Nat} {items : List Json} (hne : items ≠ [])
    (h : ∀ v ∈ items, ReadBack depth v) (rest : List Char) (fuel : Nat)
    (hfuel : 2 * (compactItems items).toList.length + 1 ≤ fuel) :
    items? fuel depth ((compactItems items).toList ++ ']' :: rest) = some (items, rest) := by
  induction items generalizing fuel with
  | nil => exact absurd rfl hne
  | cons v items ih =>
      have hv := h v List.mem_cons_self
      obtain ⟨fuel, rfl⟩ := Nat.exists_eq_add_one_of_ne_zero (Nat.ne_zero_of_lt hfuel)
      cases items with
      | nil =>
          rw [compactItems, items?, hv _ fuel (stops_bracket rest) (Nat.le_of_succ_le_succ hfuel)]
          simp only [skip_cons (show isSpace ']' = false from rfl)]
      | cons w items =>
          -- the step that this item takes is made up for by the comma behind it
          rw [toList_items, List.length_append, List.length_cons] at hfuel
          have hitems := ih (List.cons_ne_nil w items)
            (fun x hx => h x (List.mem_cons_of_mem v hx)) fuel (by omega)
          rw [toList_items, List.append_assoc, List.cons_append, items?,
            hv _ fuel (stops_comma _) (by omega)]
          simp only [skip_cons (show isSpace ',' = false from rfl), hitems, Option.map_some]

section Member

variable {depth fuel : Nat} {k : String} {v : Json} (h : ReadBack depth v) (rest : List Char)
  (hfuel : 2 * (compactMembers [(k, v)]).toList.length ≤ fuel)
include h hfuel

theorem members?_last :
    members? (fuel + 1) depth ((compactMembers [(k, v)]).toList ++ '\x7d' :: rest) =
      some ([(k, v)], rest) := by
  rw [toList_member, List.length_append, List.length_cons] at hfuel
  have hv := h _ fuel (stops_brace rest) (by omega)
  have hkey := stringTail_quoted k (':' :: (v.compact.toList ++ '\x7d' :: rest))
  rw [toList_member, toList_quoted, List.append_assoc, List.cons_append, List.cons_append, members?,
    skip_cons rfl]
  simp only [hkey, skip_cons (show isSpace ':' = false from rfl), hv,
    skip_cons (show isSpace '\x7d' = false from rfl)]

theorem members?_more :
    members? (fuel + 1) depth ((compactMembers [(k, v)]).toList ++ ',' :: rest) =
      (members? fuel depth rest).map fun (ms, r) => ((k, v) :: ms, r) := by
  rw [toList_member, List.length_append, List.length_cons] at hfuel
  have hv := h _ fuel (stops_comma rest) (by omega)
  have hkey := stringTail_quoted k (':' :: (v.compact.toList ++ ',' :: rest))
  rw [toList_member, toList_quoted, List.append_assoc, List.cons_append, List.cons_append, members?,
    skip_cons rfl]
  simp only [hkey, skip_cons (show isSpace ':' = false from rfl), hv,
    skip_cons (show isSpace ',' = false from rfl)]

end Member

theorem members?_compactMembers {depth : Nat} {members : List (String × Json)}
    (hne : members ≠ []) (h : ∀ m ∈ members, ReadBack depth m.2) (rest : List Char) (fuel : Nat)
    (hfuel : 2 * (compactMembers members).toList.length + 1 ≤ fuel) :
    members? fuel depth ((compactMembers members).toList ++ '\x7d' :: rest) =
      some (members, rest) := by
  induction members generalizing fuel with
  | nil => exact absurd rfl hne
  | cons m members ih =>
      obtain ⟨k, v⟩ := m
      have hv : ReadBack depth v := h (k, v) List.mem_cons_self
      obtain ⟨fuel, rfl⟩ := Nat.exists_eq_add_one_of_ne_zero (Nat.ne_zero_of_lt hfuel)
      cases members with
      | nil =>
          exact members?_last hv rest (Nat.le_of_succ_le_succ hfuel)
      | cons m members =>
          rw [toList_members, List.length_append, List.length_cons] at hfuel
          have hmembers := ih (List.cons_ne_nil m members)
            (fun x hx => h x (List.mem_cons_of_mem _ hx)) fuel (by omega)
          rw [toList_members, List.append_assoc, List.cons_append, members?_more hv _ (by omega),
            hmembers]
          rfl

theorem value?_items {c : Char} (hspace : isSpace c = false) (hclose : c ≠ ']')
    (fuel depth : Nat) (cs : List Char) :
    value? (fuel + 1) (depth + 1) ('[' :: c :: cs) =
      (items? fuel depth (c :: cs)).map fun (vs, r) => (array vs, r) := by
  rw [value?, skip_cons rfl]
  simp only [skip_cons hspace]
  split
  · rename_i e
    exact absurd (List.cons.inj e).1 hclose
  · rfl

theorem value?_members (fuel depth : Nat) (cs : List Char) :
    value? (fuel + 1) (depth + 1) ('\x7b' :: '"' :: cs) =
      (members? fuel depth ('"' :: cs)).map fun (ms, r) => (object ms, r) := by
  rw [value?, skip_cons rfl]
  simp only [skip_cons (show isSpace '"' = false from rfl)]
  rfl

/-- **Values are read back.** -/
theorem Fits.readBack {depth : Nat} {v : Json} (h : Fits depth v) : ReadBack depth v := by
  induction h with
  | null =>
      rintro rest (_ | fuel) - hfuel
      · cases hfuel
      · rfl
  | bool b =>
      rintro rest (_ | fuel) - hfuel
      · cases b <;> cases hfuel
      · cases b <;> rfl
  | @natural _ n h =>
      rintro rest (_ | fuel) hrest hfuel
      all_goals
        obtain ⟨c, cs, e, hc⟩ := exists_toDigits n
        rw [toList_natural, e] at hfuel
      · cases hfuel
      · have hnumber := number?_toDigits h hrest
        rw [toList_natural, e, List.cons_append, value?_of_isDigit hc, ← List.cons_append, ← e]
        exact hnumber
  | string s =>
      rintro rest (_ | fuel) - hfuel
      all_goals rw [toList_string] at hfuel
      · cases hfuel
      · rw [toList_string, List.cons_append, value?, skip_cons rfl]
        simp only [stringTail_quoted, Option.map_some]
  | @array depth items h ih =>
      rintro rest (_ | fuel) - hfuel
      all_goals
        rw [toList_array, List.length_cons, List.length_append, List.length_singleton] at hfuel
      · cases hfuel
      · rw [toList_array, List.cons_append, List.append_assoc, List.singleton_append]
        cases items with
        | nil => rfl
        | cons v items =>
            have hitems := items?_compactItems (List.cons_ne_nil v items) ih rest fuel (by omega)
            obtain ⟨c, cs, e, hspace, hclose⟩ := exists_start_items (h v List.mem_cons_self) items
            rw [e, List.cons_append] at hitems ⊢
            rw [value?_items hspace hclose, hitems]
            rfl
  | @object depth members h ih =>
      rintro rest (_ | fuel) - hfuel
      all_goals
        rw [toList_object, List.length_cons, List.length_append, List.length_singleton] at hfuel
      · cases hfuel
      · rw [toList_object, List.cons_append, List.append_assoc, List.singleton_append]
        cases members with
        | nil => rfl
        | cons m members =>
            have hmembers :=
              members?_compactMembers (List.cons_ne_nil m members) ih rest fuel (by omega)
            obtain ⟨cs, e⟩ := exists_start_members m members
            rw [e, List.cons_append] at hmembers ⊢
            rw [value?_members, hmembers]
            rfl

/-- **The text of a value is read as this value.** -/
theorem parse?_compact {v : Json} (h : Fits 127 v) : parse? v.compact = some v := by
  have hread := h.readBack [] (2 * v.compact.toList.length + 2) stops_nil (by omega)
  rw [List.append_nil] at hread
  simp only [parse?, hread]
  rfl

/-! ### Numbers that are read -/

/-- All natural numbers in a value are machine words. -/
inductive Words : Json → Prop where
  | null : Words null
  | bool (b : Bool) : Words (bool b)
  | natural {n : Nat} (h : IsWord n) : Words (natural n)
  | negative (n : Nat) : Words (negative n)
  | real (x : Float) : Words (real x)
  | string (s : String) : Words (string s)
  | array {items : List Json} (h : ∀ v ∈ items, Words v) : Words (array items)
  | object {members : List (String × Json)} (h : ∀ m ∈ members, Words m.2) : Words (object members)

theorem words_of_realOf? {negated : Bool} {text : List Char} {v : Json}
    (h : realOf? negated text = some v) : v.Words := by
  obtain ⟨x, -, h⟩ := Option.bind_eq_some_iff.mp h
  split at h
  · cases h
    exact .real _
  · cases h

theorem words_of_number? {cs rest : List Char} {v : Json} (h : number? cs = some (v, rest)) :
    v.Words := by
  unfold number? at h
  generalize spanSign cs = signed at h
  obtain ⟨negated, cs⟩ := signed
  obtain ⟨⟨whole, cs⟩, -, h⟩ := Option.bind_eq_some_iff.mp h
  obtain ⟨⟨fraction, cs⟩, -, h⟩ := Option.bind_eq_some_iff.mp h
  obtain ⟨⟨power, cs⟩, -, h⟩ := Option.bind_eq_some_iff.mp h
  dsimp only at h
  split at h
  · split at h
    · rename_i hsmall
      cases h
      exact .natural (of_decide_eq_true (Bool.and_eq_true_iff.mp hsmall).2)
    · split at h
      · cases h
        exact .negative _
      · obtain ⟨x, hx, h⟩ := Option.bind_eq_some_iff.mp h
        cases h
        exact words_of_realOf? hx
  · obtain ⟨x, hx, h⟩ := Option.bind_eq_some_iff.mp h
    cases h
    exact words_of_realOf? hx

/-- In so many steps, nothing is read but machine words. -/
structure ReadsWords (fuel : Nat) : Prop where
  value : ∀ {depth : Nat} {cs rest : List Char} {v : Json},
    value? fuel depth cs = some (v, rest) → v.Words
  items : ∀ {depth : Nat} {cs rest : List Char} {vs : List Json},
    items? fuel depth cs = some (vs, rest) → ∀ v ∈ vs, v.Words
  members : ∀ {depth : Nat} {cs rest : List Char} {ms : List (String × Json)},
    members? fuel depth cs = some (ms, rest) → ∀ m ∈ ms, m.2.Words

namespace ReadsWords

variable {fuel depth : Nat} {cs rest : List Char} (ih : ReadsWords fuel)
include ih

theorem value_step {v : Json} (h : value? (fuel + 1) depth cs = some (v, rest)) : v.Words := by
  rw [value?] at h
  split at h
  · cases h
    exact .null
  · cases h
    exact .bool true
  · cases h
    exact .bool false
  · obtain ⟨s, -, e⟩ := Option.map_eq_some_iff.mp h
    cases e
    exact .string _
  · split at h
    · cases h
    · split at h
      · cases h
        exact .array nofun
      · obtain ⟨⟨vs, r⟩, hvs, e⟩ := Option.map_eq_some_iff.mp h
        cases e
        exact .array (ih.items hvs)
  · split at h
    · cases h
    · split at h
      · cases h
        exact .object nofun
      · obtain ⟨⟨ms, r⟩, hms, e⟩ := Option.map_eq_some_iff.mp h
        cases e
        exact .object (ih.members hms)
  · exact words_of_number? h

theorem items_step {vs : List Json} (h : items? (fuel + 1) depth cs = some (vs, rest)) :
    ∀ v ∈ vs, v.Words := by
  rw [items?] at h
  split at h
  · cases h
  · rename_i v r hv
    split at h
    · obtain ⟨⟨vs, r⟩, hvs, e⟩ := Option.map_eq_some_iff.mp h
      cases e
      exact List.forall_mem_cons.mpr ⟨ih.value hv, ih.items hvs⟩
    · cases h
      exact List.forall_mem_singleton.mpr (ih.value hv)
    · cases h

theorem members_step {ms : List (String × Json)}
    (h : members? (fuel + 1) depth cs = some (ms, rest)) : ∀ m ∈ ms, m.2.Words := by
  rw [members?] at h
  split at h
  · split at h
    · cases h
    · split at h
      · split at h
        · cases h
        · rename_i v r hv
          split at h
          · obtain ⟨⟨ms, r⟩, hms, e⟩ := Option.map_eq_some_iff.mp h
            cases e
            exact List.forall_mem_cons.mpr ⟨ih.value hv, ih.members hms⟩
          · cases h
            exact List.forall_mem_singleton.mpr (ih.value hv)
          · cases h
      · cases h
  · cases h

end ReadsWords

theorem readsWords (fuel : Nat) : ReadsWords fuel := by
  induction fuel with
  | zero => exact ⟨nofun, nofun, nofun⟩
  | succ fuel ih => exact ⟨ih.value_step, ih.items_step, ih.members_step⟩

/-- **The natural numbers in a text that is read are machine words.** -/
theorem words_of_parse? {text : String} {v : Json} (h : parse? text = some v) : v.Words := by
  unfold parse? at h
  dsimp only at h
  split at h
  · rename_i hv
    split at h
    · cases h
      exact (readsWords _).value hv
    · cases h
  · cases h

end ArchReview.Json
