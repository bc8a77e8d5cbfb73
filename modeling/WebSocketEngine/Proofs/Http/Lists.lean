import WebSocketEngine.Proofs.Http.Fields

/-!
Lists in header lines.

    line      element , element , .. , element
    element   blanks                       nothing
              blanks  piece  blanks        one piece

A piece is text without a comma that neither begins nor ends with a blank.  The lines of a header
hold the pieces of all of them in order, and a line that does not read back as text holds none.
Those are the tokens of the header (`holds_iff`), wherever the lines begin and end and whatever
stands between the pieces.
-/

namespace WebSocketEngine

namespace Text

/-! ### Blanks around a text -/

/-- The text `p`, which neither begins nor ends with a blank, with blanks around it. -/
structure Padded (p cs : List Char) : Prop where
  around : ∃ before after, cs = before ++ p ++ after ∧
    (∀ c ∈ before, isBlank c = true) ∧ ∀ c ∈ after, isBlank c = true
  first : ∀ c ∈ p.head?, isBlank c = false
  last : ∀ c ∈ p.getLast?, isBlank c = false

variable {cs p : List Char}

theorem dropWhile_of_head? {q : Char → Bool} (stops : ∀ c ∈ cs.head?, q c = false) :
    cs.dropWhile q = cs := by
  cases cs with
  | nil => rfl
  | cons c cs => rw [List.dropWhile_cons_of_neg (by simp [stops c rfl])]

theorem head?_dropWhile {q : Char → Bool} (cs : List Char) :
    ∀ c ∈ (cs.dropWhile q).head?, q c = false := by
  intro c first
  have stopped := List.head?_dropWhile_not q cs
  rw [Option.mem_def.mp first] at stopped
  simpa using stopped

theorem trimBlank_of_padded (padded : Padded p cs) : trimBlank cs = p := by
  obtain ⟨⟨before, after, rfl, front, back⟩, first, last⟩ := padded
  rw [trimBlank, List.append_assoc, List.dropWhile_append_of_pos front]
  cases p with
  | nil =>
    rw [List.nil_append, List.dropWhile_eq_nil_iff.mpr back]
    rfl
  | cons c p =>
    have starts : (c :: p ++ after).dropWhile isBlank = c :: p ++ after :=
      dropWhile_of_head? fun d mem => first d mem
    have tail : ∀ d ∈ after.reverse, isBlank d = true :=
      fun d mem => back d (List.mem_reverse.mp mem)
    rw [starts, List.reverse_append, List.dropWhile_append_of_pos tail, dropWhile_of_head?,
      List.reverse_reverse]
    intro d mem
    rw [List.head?_reverse] at mem
    exact last d mem

theorem padded_trimBlank (cs : List Char) : Padded (trimBlank cs) cs := by
  have inner := List.takeWhile_append_dropWhile (p := isBlank) (l := cs)
  have starts := head?_dropWhile (q := isBlank) cs
  rw [trimBlank]
  generalize cs.dropWhile isBlank = rest at inner starts
  have outer := List.takeWhile_append_dropWhile (p := isBlank) (l := rest.reverse)
  have ends := head?_dropWhile (q := isBlank) rest.reverse
  generalize rest.reverse.dropWhile isBlank = kept at outer ends
  have whole : rest = kept.reverse ++ (rest.reverse.takeWhile isBlank).reverse := by
    rw [← List.reverse_append, outer, List.reverse_reverse]
  refine ⟨⟨cs.takeWhile isBlank, (rest.reverse.takeWhile isBlank).reverse, ?_, ?_, ?_⟩, ?_, ?_⟩
  · rw [List.append_assoc, ← whole, inner]
  · exact fun c mem => List.mem_takeWhile_imp mem
  · exact fun c mem => List.mem_takeWhile_imp (List.mem_reverse.mp mem)
  · intro c mem
    refine starts c ?_
    rw [whole]
    cases front : kept.reverse with
    | nil =>
      rw [front] at mem
      cases mem
    | cons d ds =>
      rw [front] at mem
      exact mem
  · intro c mem
    rw [List.getLast?_reverse] at mem
    exact ends c mem

theorem padded_iff : Padded p cs ↔ trimBlank cs = p := by
  constructor
  · exact trimBlank_of_padded
  · rintro rfl
    exact padded_trimBlank cs

/-! ### Pieces between separators -/

variable {sep : Char} {ds : List Char}

theorem pieces_of_plain (plain : sep ∉ cs) : pieces sep cs = [cs] := by
  induction cs with
  | nil => rfl
  | cons c cs ih =>
    obtain ⟨other, plain⟩ := not_or.mp (mt List.mem_cons.mpr plain)
    rw [pieces, if_neg (Ne.symm other), ih plain]

theorem pieces_append (plain : sep ∉ cs) : pieces sep (cs ++ sep :: ds) = cs :: pieces sep ds := by
  induction cs with
  | nil => rw [List.nil_append, pieces, if_pos rfl]
  | cons c cs ih =>
    obtain ⟨other, plain⟩ := not_or.mp (mt List.mem_cons.mpr plain)
    rw [List.cons_append, pieces, if_neg (Ne.symm other), ih plain]

end Text

namespace Http

open Text (isBlank Padded pieces trimBlank)

/-! ### One line -/

/-- What stands between two commas: blanks alone, or a piece with blanks around it. -/
inductive Element : List Char → Option (List Char) → Prop
  | empty {e : List Char} : (∀ c ∈ e, isBlank c = true) → Element e none
  | piece {e p : List Char} : p ≠ [] → ',' ∉ p → Padded p e → Element e (some p)

/-- The pieces of a line, in order. -/
inductive Lists : List Char → List (List Char) → Prop
  | last {e : List Char} {p : Option (List Char)} : Element e p → Lists e p.toList
  | more {e cs : List Char} {p : Option (List Char)} {ps : List (List Char)} :
    Element e p → Lists cs ps → Lists (e ++ ',' :: cs) (p.toList ++ ps)

/-- The pieces that are read from a line. -/
def read (cs : List Char) : List (List Char) :=
  ((pieces ',' cs).map trimBlank).filter (· ≠ [])

theorem plain_of_blank {cs : List Char} (blank : ∀ c ∈ cs, isBlank c = true) : ',' ∉ cs := by
  intro mem
  have comma : isBlank ',' = false := by decide
  rw [blank ',' mem] at comma
  cases comma

theorem plain_of_element {e : List Char} {p : Option (List Char)} (element : Element e p) :
    ',' ∉ e := by
  cases element with
  | empty blank => exact plain_of_blank blank
  | piece _ plain padded =>
    obtain ⟨before, after, rfl, front, back⟩ := padded.around
    simp [plain, plain_of_blank front, plain_of_blank back]

theorem filter_trimBlank {e : List Char} {p : Option (List Char)} (element : Element e p) :
    [trimBlank e].filter (· ≠ []) = p.toList := by
  cases element with
  | empty blank =>
    have nothing : Padded [] e := ⟨⟨e, [], by simp, blank, by simp⟩, by simp, by simp⟩
    rw [Text.trimBlank_of_padded nothing]
    rfl
  | piece some_ _ padded =>
    rw [Text.trimBlank_of_padded padded, List.filter_cons_of_pos (by simpa using some_)]
    rfl

theorem exists_element {e : List Char} (plain : ',' ∉ e) : ∃ p, Element e p := by
  have padded := Text.padded_trimBlank e
  obtain ⟨before, after, whole, front, back⟩ := padded.around
  by_cases blank : trimBlank e = []
  · refine ⟨none, .empty fun c mem => ?_⟩
    rw [whole, blank, List.append_nil] at mem
    exact (List.mem_append.mp mem).elim (front c) (back c)
  · refine ⟨some (trimBlank e), .piece blank (fun mem => plain ?_) padded⟩
    exact Text.mem_of_mem_trimBlank mem

theorem read_of_lists {cs : List Char} {ps : List (List Char)} (lists : Lists cs ps) :
    read cs = ps := by
  induction lists with
  | last element =>
    rw [read, Text.pieces_of_plain (plain_of_element element), List.map_singleton,
      filter_trimBlank element]
  | @more e cs p ps element _ ih =>
    rw [read, Text.pieces_append (plain_of_element element), List.map_cons,
      ← List.singleton_append, List.filter_append, filter_trimBlank element]
    exact congrArg (p.toList ++ ·) ih

/-- Every line is a list of some pieces: up to its first comma, and then on from there. -/
theorem exists_lists (cs : List Char) : ∃ ps, Lists cs ps := by
  by_cases comma : ',' ∈ cs
  · obtain ⟨e, rest, whole, plain⟩ := List.eq_append_cons_of_mem comma
    have shorter : rest.length < cs.length := by
      rw [whole, List.length_append, List.length_cons]
      omega
    obtain ⟨p, element⟩ := exists_element plain
    obtain ⟨ps, lists⟩ := exists_lists rest
    rw [whole]
    exact ⟨_, .more element lists⟩
  · obtain ⟨p, element⟩ := exists_element comma
    exact ⟨_, .last element⟩
termination_by cs.length

theorem lists_iff {cs : List Char} {ps : List (List Char)} : Lists cs ps ↔ read cs = ps := by
  constructor
  · exact read_of_lists
  · rintro rfl
    obtain ⟨ps, lists⟩ := exists_lists cs
    rwa [read_of_lists lists]

/-! ### All lines of a header -/

/-- The pieces of some lines, in order; a line that does not read back as text has none. -/
inductive Holds : List FieldValue → List String → Prop
  | nil : Holds [] []
  | text {v : FieldValue} {ps : List String} {vs : List FieldValue} {qs : List String} :
    Readable v.raw → Lists v.raw.toList (ps.map String.toList) → Holds vs qs →
      Holds (v :: vs) (ps ++ qs)
  | other {v : FieldValue} {vs : List FieldValue} {qs : List String} :
    ¬ Readable v.raw → Holds vs qs → Holds (v :: vs) qs

namespace FieldValue

theorem text?_eq_some {v : FieldValue} (readable : Readable v.raw) : v.text? = some v.raw :=
  @text?_of_readable v.raw v.allowed readable

theorem text?_eq_none {v : FieldValue} (unreadable : ¬ Readable v.raw) : v.text? = none := by
  rw [text?, if_neg]
  rwa [String.all_bool_eq, List.all_eq_true]

end FieldValue

/-- The tokens that are read from some lines. -/
def tokensOf (vs : List FieldValue) : List String :=
  ((vs.filterMap (·.text?)).flatMap fun t => read t.toList).map String.ofList

theorem tokens_eq (h : Headers) (n : FieldName) : h.tokens n = tokensOf (h.values n) := by
  rw [Headers.tokens, tokensOf]
  congr 1
  exact List.filter_flatMap ..

theorem tokensOf_of_readable {v : FieldValue} (readable : Readable v.raw) (vs : List FieldValue) :
    tokensOf (v :: vs) = (read v.raw.toList).map String.ofList ++ tokensOf vs := by
  rw [tokensOf, List.filterMap_cons_some (FieldValue.text?_eq_some readable), List.flatMap_cons,
    List.map_append]
  rfl

theorem tokensOf_of_unreadable {v : FieldValue} (unreadable : ¬ Readable v.raw)
    (vs : List FieldValue) : tokensOf (v :: vs) = tokensOf vs := by
  rw [tokensOf, List.filterMap_cons_none (FieldValue.text?_eq_none unreadable)]
  rfl

theorem tokensOf_of_holds {vs : List FieldValue} {ps : List String} (holds : Holds vs ps) :
    tokensOf vs = ps := by
  induction holds with
  | nil => rfl
  | @text v ps vs qs readable lists _ ih =>
    have texts : (ps.map String.toList).map String.ofList = ps := by simp
    rw [tokensOf_of_readable readable, read_of_lists lists, texts, ih]
  | other unreadable _ ih => rw [tokensOf_of_unreadable unreadable, ih]

theorem holds_tokensOf (vs : List FieldValue) : Holds vs (tokensOf vs) := by
  induction vs with
  | nil => exact .nil
  | cons v vs ih =>
    by_cases readable : Readable v.raw
    · rw [tokensOf_of_readable readable]
      exact .text readable (lists_iff.mpr (by simp)) ih
    · rw [tokensOf_of_unreadable readable]
      exact .other readable ih

/-- The tokens of a header are the pieces that its lines hold. -/
theorem holds_iff {h : Headers} {n : FieldName} {ps : List String} :
    Holds (h.values n) ps ↔ h.tokens n = ps := by
  rw [tokens_eq]
  constructor
  · exact tokensOf_of_holds
  · rintro rfl
    exact holds_tokensOf _

end Http

end WebSocketEngine
