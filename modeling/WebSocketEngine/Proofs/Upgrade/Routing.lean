import Mathlib.Data.List.Induction
import Mathlib.Data.Prod.Lex
import WebSocketEngine.Proofs.Upgrade.Grammar

/-!
Which entry of a table a path leads to.

    before         less specific, or does not cover the path
    the entry      covers the path
    after          at most as specific, or does not cover the path

Reading the entries in order keeps this of the best one so far (`leads_step`), so it holds of the
one that is found (`leads_find?`).  Two patterns that cover one path and are equally specific are
the same or both name an ending (`eq_or_endings`): what is found does not depend on the order of
the entries but for such a pair.
-/

namespace WebSocketEngine.Upgrade

variable {ν μ : Type} {path : String}

namespace Pattern

variable {p q : Pattern}

/-! ### Specificity -/

/-- The rank of a pattern's shape, and the length that counts within it. -/
def specificity (p : Pattern) : ℕ ×ₗ ℕ := toLex (p.rank, p.weight)

theorem outranks_iff : p.outranks q = true ↔ q.specificity < p.specificity := by
  rw [specificity, specificity, Prod.Lex.toLex_lt_toLex, outranks]
  simp only [Bool.or_eq_true, Bool.and_eq_true, decide_eq_true_eq]
  rw [eq_comm (a := p.rank)]

theorem specificity_lt_of_rank (alike : p.rank = q.rank) (lighter : q.weight < p.weight) :
    q.specificity < p.specificity := by
  rw [specificity, specificity, Prod.Lex.toLex_lt_toLex]
  exact .inr ⟨alike.symm, lighter⟩

theorem specificity_eq : p.specificity = q.specificity ↔ p.rank = q.rank ∧ p.weight = q.weight :=
  toLex_inj.trans Prod.mk_inj

/-- The pattern names an ending. -/
def IsEnding (p : Pattern) : Prop := ∃ dir ext, p.shape = .ending dir ext

/-- Patterns of one rank have one shape. -/
theorem shapes_of_rank (alike : p.rank = q.rank) :
    (p.shape = .anything ∧ q.shape = .anything) ∨ (p.shape = .exact ∧ q.shape = .exact) ∨
      (∃ base base', p.shape = .below base ∧ q.shape = .below base') ∨
      ∃ dir ext dir' ext', p.shape = .ending dir ext ∧ q.shape = .ending dir' ext' := by
  unfold rank at alike
  generalize p.shape = a at alike ⊢
  generalize q.shape = b at alike ⊢
  cases a <;> cases b <;> simp at alike ⊢

/-! ### Lengths -/

theorem size_append (xs ys : List Char) : (String.ofList (xs ++ ys)).utf8ByteSize =
    (String.ofList xs).utf8ByteSize + (String.ofList ys).utf8ByteSize := by
  rw [String.ofList_append, String.utf8ByteSize_append]

theorem size_eq_zero_iff {cs : List Char} : (String.ofList cs).utf8ByteSize = 0 ↔ cs = [] :=
  String.utf8ByteSize_eq_zero_iff.trans String.ofList_eq_empty_iff

/-- A beginning of a text is the text or shorter. -/
theorem eq_or_shorter {xs ys : List Char} (led : xs <+: ys) :
    xs = ys ∨ (String.ofList xs).utf8ByteSize < (String.ofList ys).utf8ByteSize := by
  obtain ⟨rest, rfl⟩ := led
  rw [size_append]
  cases rest with
  | nil => exact .inl (List.append_nil xs).symm
  | cons c rest =>
    have long := mt size_eq_zero_iff.mp (List.cons_ne_nil c rest)
    exact .inr (by omega)

/-- Two beginnings of one text are the same if they are equally long. -/
theorem eq_of_beginnings {xs ys cs : List Char} (first : xs <+: cs) (second : ys <+: cs)
    (same : (String.ofList xs).utf8ByteSize = (String.ofList ys).utf8ByteSize) : xs = ys := by
  rcases List.prefix_or_prefix_of_prefix first second with led | led
  · exact (eq_or_shorter led).resolve_right same.not_lt
  · exact ((eq_or_shorter led).resolve_right same.not_gt).symm

/-! ### Equally specific patterns -/

/-- A pattern is known by its text. -/
theorem eq_of_raw (readp : parse p.raw = .ok p) (readq : parse q.raw = .ok q)
    (same : p.raw.toList = q.raw.toList) : p = q := by
  rw [String.toList_inj.mp same, readq] at readp
  exact (Except.ok.inj readp).symm

theorem raw_of_anything (read : parse p.raw = .ok p) (shaped : p.shape = .anything) :
    p.raw.toList = ['/'] := by
  have spelled := (parse_eq_ok_iff.mp read).2
  generalize p.raw.toList = text at spelled ⊢
  rw [shaped] at spelled
  cases spelled
  rfl

theorem raw_of_below {base : List Char} (read : parse p.raw = .ok p)
    (shaped : p.shape = .below base) : p.raw.toList = base ++ ['/', '*'] := by
  have spelled := (parse_eq_ok_iff.mp read).2
  generalize p.raw.toList = text at spelled ⊢
  rw [shaped] at spelled
  cases spelled
  rfl

theorem prefix_of_covers {base : List Char} (shaped : p.shape = .below base)
    (covered : p.covers path = true) : base <+: path.toList := by
  rcases (covers_of_below shaped).mp covered with rfl | whole | ⟨filling, whole⟩
  · exact List.nil_prefix
  · exact whole ▸ List.prefix_rfl
  · exact ⟨_, whole.symm⟩

/-- Two patterns that cover one path and are equally specific are the same or both name an
ending. -/
theorem eq_or_endings (readp : parse p.raw = .ok p) (readq : parse q.raw = .ok q)
    (coverp : p.covers path = true) (coverq : q.covers path = true)
    (same : p.specificity = q.specificity) :
    p = q ∨ p.IsEnding ∧ q.IsEnding ∧ p.raw.utf8ByteSize = q.raw.utf8ByteSize := by
  obtain ⟨ranks, weights⟩ := specificity_eq.mp same
  unfold weight at weights
  rcases shapes_of_rank ranks with ⟨shapedp, shapedq⟩ | ⟨shapedp, shapedq⟩ |
    ⟨base, base', shapedp, shapedq⟩ | ⟨dir, ext, dir', ext', shapedp, shapedq⟩
  · refine .inl (eq_of_raw readp readq ?_)
    rw [raw_of_anything readp shapedp, raw_of_anything readq shapedq]
  · refine .inl (eq_of_raw readp readq ?_)
    rw [← (covers_of_exact shapedp).mp coverp, (covers_of_exact shapedq).mp coverq]
  · rw [shapedp, shapedq] at weights
    have bases : base = base' :=
      eq_of_beginnings (prefix_of_covers shapedp coverp) (prefix_of_covers shapedq coverq) weights
    refine .inl (eq_of_raw readp readq ?_)
    rw [raw_of_below readp shapedp, raw_of_below readq shapedq, bases]
  · rw [shapedp, shapedq] at weights
    exact .inr ⟨⟨dir, ext, shapedp⟩, ⟨dir', ext', shapedq⟩, weights⟩

end Pattern

/-! ### The best of a table -/

open Pattern

/-- The entry covers the path, is more specific than all before it that do, and is as specific as
all after it that do. -/
def Foremost (path : String) (es : List (Pattern × ν)) (e : Pattern × ν) : Prop :=
  ∃ before after, es = before ++ e :: after ∧ e.1.covers path = true ∧
    (∀ d ∈ before, d.1.covers path = true → d.1.specificity < e.1.specificity) ∧
    ∀ d ∈ after, d.1.covers path = true → d.1.specificity ≤ e.1.specificity

/-- What a path leads to among entries. -/
def Leads (path : String) (es : List (Pattern × ν)) : Option (Pattern × ν) → Prop
  | none => ∀ d ∈ es, ¬d.1.covers path = true
  | some e => Foremost path es e

theorem Foremost.mem {es : List (Pattern × ν)} {e : Pattern × ν} (first : Foremost path es e) :
    e ∈ es := by
  obtain ⟨before, after, rfl, -⟩ := first
  simp

theorem Foremost.covers {es : List (Pattern × ν)} {e : Pattern × ν} (first : Foremost path es e) :
    e.1.covers path = true := by
  obtain ⟨-, -, -, covered, -⟩ := first
  exact covered

theorem Foremost.bound {es : List (Pattern × ν)} {d e : Pattern × ν} (first : Foremost path es e)
    (mem : d ∈ es) (covered : d.1.covers path = true) : d.1.specificity ≤ e.1.specificity := by
  obtain ⟨before, after, rfl, -, below, beside⟩ := first
  rcases List.mem_append.mp mem with mem | mem
  · exact (below d mem covered).le
  rcases List.mem_cons.mp mem with rfl | mem
  · exact le_rfl
  · exact beside d mem covered

/-- One more entry that covers the path. -/
theorem leads_step {es : List (Pattern × ν)} {best : Option (Pattern × ν)}
    (leads : Leads path es best) {e : Pattern × ν} (covered : e.1.covers path = true) :
    Leads path (es ++ [e]) (Routes.better best e) := by
  cases best with
  | none =>
    refine ⟨es, [], rfl, covered, fun d mem other => absurd other (leads d mem), ?_⟩
    simp
  | some b =>
    rw [Routes.better]
    split
    · next beats =>
      have above := outranks_iff.mp beats
      refine ⟨es, [], rfl, covered, fun d mem other => ?_, by simp⟩
      exact (Foremost.bound leads mem other).trans_lt above
    · next under =>
      obtain ⟨before, after, rfl, coversb, below, beside⟩ := leads
      refine ⟨before, after ++ [e], by simp, coversb, below, fun d mem other => ?_⟩
      rcases List.mem_append.mp mem with mem | mem
      · exact beside d mem other
      · cases List.mem_singleton.mp mem
        exact not_lt.mp fun above => under (outranks_iff.mpr above)

/-- One more entry that does not cover the path. -/
theorem leads_skip {es : List (Pattern × ν)} {best : Option (Pattern × ν)}
    (leads : Leads path es best) {e : Pattern × ν} (other : ¬e.1.covers path = true) :
    Leads path (es ++ [e]) best := by
  cases best with
  | none =>
    intro d mem
    rcases List.mem_append.mp mem with mem | mem
    · exact leads d mem
    · exact List.mem_singleton.mp mem ▸ other
  | some b =>
    obtain ⟨before, after, rfl, coversb, below, beside⟩ := leads
    refine ⟨before, after ++ [e], by simp, coversb, below, fun d mem covered => ?_⟩
    rcases List.mem_append.mp mem with mem | mem
    · exact beside d mem covered
    · exact absurd covered (List.mem_singleton.mp mem ▸ other)

/-- What a table finds for a path is what the path leads to. -/
theorem leads_find? (r : Routes ν) (path : String) : Leads path r.entries (r.find? path) := by
  rw [Routes.find?, List.foldl_filter]
  obtain ⟨es⟩ := r
  induction es using List.reverseRecOn with
  | nil =>
    intro d mem
    cases mem
  | append_singleton es e ih =>
    rw [List.foldl_append, List.foldl_cons, List.foldl_nil]
    split
    · next covered => exact leads_step ih covered
    · next other => exact leads_skip ih other

theorem find?_eq_none_iff {r : Routes ν} :
    r.find? path = none ↔ ∀ e ∈ r.entries, ¬e.1.covers path = true := by
  have leads := leads_find? r path
  cases found : r.find? path with
  | none =>
    rw [found] at leads
    exact iff_of_true rfl leads
  | some e =>
    rw [found] at leads
    exact iff_of_false (Option.some_ne_none e) fun missed => missed e leads.mem leads.covers

theorem foremost_of_find? {r : Routes ν} {e : Pattern × ν} (found : r.find? path = some e) :
    Foremost path r.entries e := by
  have leads := leads_find? r path
  rwa [found] at leads

/-! ### Tables that are built -/

/-- What can be done to a table. -/
inductive Edit (ν : Type)
  | addText (raw : String) (v : ν)
  /-- A pattern comes from reading its text. -/
  | add (p : Pattern) (read : parse p.raw = .ok p) (v : ν)
  | remove (raw : String)

namespace Routes

/-- Does what is to be done; a text that is no pattern changes nothing. -/
def edit (r : Routes ν) : Edit ν → Routes ν
  | .addText raw v => (r.addText raw v).toOption.getD r
  | .add p _ v => r.add p v
  | .remove raw => r.remove raw

/-- The table that the edits come to. -/
def built (edits : List (Edit ν)) : Routes ν := edits.foldl edit .empty

/-- Every entry's pattern comes from reading its text. -/
def AllRead (r : Routes ν) : Prop := ∀ e ∈ r.entries, parse e.1.raw = .ok e.1

theorem AllRead.add {r : Routes ν} (all : r.AllRead) {p : Pattern} (read : parse p.raw = .ok p)
    (v : ν) : (r.add p v).AllRead := by
  intro e mem
  rcases List.mem_append.mp mem with mem | mem
  · exact all e mem
  · cases List.mem_singleton.mp mem
    exact read

theorem AllRead.edit {r : Routes ν} (all : r.AllRead) (change : Edit ν) :
    (r.edit change).AllRead := by
  cases change with
  | addText raw v =>
    rw [Routes.edit, addText]
    cases read : parse raw with
    | error => exact all
    | ok p =>
      obtain ⟨rfl, -⟩ := parse_eq_ok_iff.mp read
      exact all.add read v
  | add p read v => exact all.add read v
  | remove raw => exact fun e mem => all e (List.mem_filter.mp mem).1

theorem allRead_built (edits : List (Edit ν)) : (built edits).AllRead := by
  refine List.foldlRecOn edits Routes.edit ?_ fun r all change _ => all.edit change
  intro e mem
  cases mem

/-! ### Tables of the same patterns -/

def patterns (r : Routes ν) : List Pattern := r.entries.map (·.1)

theorem mem_patterns {r : Routes ν} {p : Pattern} : p ∈ r.patterns ↔ ∃ v, (p, v) ∈ r.entries := by
  simp [patterns]

/-- Where an entry covers the path, something at least as specific is found. -/
theorem exists_find? {r : Routes ν} {p : Pattern} (mem : p ∈ r.patterns)
    (covered : p.covers path = true) :
    ∃ e, r.find? path = some e ∧ p.specificity ≤ e.1.specificity := by
  obtain ⟨v, there⟩ := mem_patterns.mp mem
  cases found : r.find? path with
  | none => exact absurd covered (find?_eq_none_iff.mp found _ there)
  | some e => exact ⟨e, rfl, (foremost_of_find? found).bound there covered⟩

/-- What is found in one table is at least as specific as what is found in the other. -/
theorem specificity_le_of_patterns {r : Routes ν} {s : Routes μ} {d : Pattern × ν}
    {e : Pattern × μ} (within : ∀ p, p ∈ s.patterns → p ∈ r.patterns)
    (foundr : r.find? path = some d) (founds : s.find? path = some e) :
    e.1.specificity ≤ d.1.specificity := by
  have first := foremost_of_find? founds
  have there := within _ (mem_patterns.mpr ⟨e.2, first.mem⟩)
  obtain ⟨d', again, above⟩ := exists_find? there first.covers
  cases again.symm.trans foundr
  exact above

theorem find?_eq_none_of_patterns {r : Routes ν} {s : Routes μ}
    (within : ∀ p, p ∈ s.patterns → p ∈ r.patterns) (missed : r.find? path = none) :
    s.find? path = none := by
  refine find?_eq_none_iff.mpr fun e mem covered => ?_
  obtain ⟨d, found, -⟩ := exists_find? (within _ (mem_patterns.mpr ⟨e.2, mem⟩)) covered
  cases found.symm.trans missed

/-- Tables of the same patterns find the same pattern, or two endings that are equally long. -/
theorem found_of_patterns {r : Routes ν} {s : Routes μ} (readr : r.AllRead) (reads : s.AllRead)
    (alike : ∀ p, p ∈ r.patterns ↔ p ∈ s.patterns) :
    (r.find? path).map (·.1) = (s.find? path).map (·.1) ∨
      ∃ d e, r.find? path = some d ∧ s.find? path = some e ∧ d.1.IsEnding ∧ e.1.IsEnding ∧
        d.1.raw.utf8ByteSize = e.1.raw.utf8ByteSize := by
  cases foundr : r.find? path with
  | none =>
    rw [find?_eq_none_of_patterns (fun p => (alike p).mpr) foundr]
    exact .inl rfl
  | some d =>
    cases founds : s.find? path with
    | none =>
      rw [find?_eq_none_of_patterns (fun p => (alike p).mp) founds] at foundr
      cases foundr
    | some e =>
      have same : d.1.specificity = e.1.specificity :=
        le_antisymm (specificity_le_of_patterns (fun p => (alike p).mp) founds foundr)
          (specificity_le_of_patterns (fun p => (alike p).mpr) foundr founds)
      have firstd := foremost_of_find? foundr
      have firste := foremost_of_find? founds
      have equals := eq_or_endings (readr d firstd.mem) (reads e firste.mem) firstd.covers
        firste.covers same
      rcases equals with eq | endings
      · exact .inl (congrArg some eq)
      · exact .inr ⟨d, e, rfl, rfl, endings⟩

/-- However a table was built, a path leads to the first of the most specific entries that cover
it, and to none if none covers it.  What else was built of the same patterns leads to the same
pattern, unless both lead to endings that are equally long. -/
theorem leads_to_most_specific (edits : List (Edit ν)) (path : String) :
    ((built edits).find? path = none ↔
        ∀ e ∈ (built edits).entries, ¬e.1.covers path = true) ∧
      (∀ e, (built edits).find? path = some e → Foremost path (built edits).entries e) ∧
      ∀ others : List (Edit μ),
        (∀ p, p ∈ (built edits).patterns ↔ p ∈ (built others).patterns) →
          ((built edits).find? path).map (·.1) = ((built others).find? path).map (·.1) ∨
            ∃ d e, (built edits).find? path = some d ∧ (built others).find? path = some e ∧
              d.1.IsEnding ∧ e.1.IsEnding ∧ d.1.raw.utf8ByteSize = e.1.raw.utf8ByteSize :=
  ⟨find?_eq_none_iff, fun _ found => foremost_of_find? found,
    fun others alike => found_of_patterns (allRead_built edits) (allRead_built others) alike⟩

/-- Two endings of seven bytes: the one that was added first is found. -/
theorem leads_to_most_specific_endings :
    let path := "/a/q.bc.ws"
    let one := [Edit.addText "/a/*.ws" 1, .addText "*.bc.ws" 2]
    let two := [Edit.addText "*.bc.ws" 2, .addText "/a/*.ws" 1]
    ∃ d e, (built one).find? path = some d ∧ (built two).find? path = some e ∧ d.2 = 1 ∧ e.2 = 2 ∧
      d.1.IsEnding ∧ e.1.IsEnding ∧ d.1.raw.utf8ByteSize = e.1.raw.utf8ByteSize := by
  intro path one two
  have first : ((built one).find? path).map (·.2) = some 1 := by decide
  have second : ((built two).find? path).map (·.2) = some 2 := by decide
  have differ : ((built one).find? path).map (·.1) ≠ ((built two).find? path).map (·.1) := by
    decide
  have turned : (built one).patterns = (built two).patterns.reverse := by decide
  obtain ⟨-, -, reordered⟩ := leads_to_most_specific one path
  rcases reordered two fun p => by rw [turned, List.mem_reverse] with
    same | ⟨d, e, foundd, founde, endings⟩
  · exact absurd same differ
  · rw [foundd] at first
    rw [founde] at second
    exact ⟨d, e, foundd, founde, Option.some.inj first, Option.some.inj second, endings⟩

end Routes

end WebSocketEngine.Upgrade
