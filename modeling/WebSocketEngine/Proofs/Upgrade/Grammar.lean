import WebSocketEngine.Upgrade.Routes
import Mathlib.Data.List.TakeWhile

/-!
Which texts are patterns, and which paths a pattern covers.

    /          anything
    base/*     below base         base is empty or begins with /
    dir*ext    ending dir ext     dir is empty, or begins and ends with /; ext begins with a dot
                                  and stays in one segment
    /...       exact              any other text that begins with /

The wildcard is the only `*` of a text.  A text is read as a pattern of some shape exactly if it is
spelled that way (`shapeOf_eq_ok_iff`), so no text has two shapes.  What a pattern covers is said of
its text: the paths that come about when the wildcard is filled, and a few more (`Covering`).
-/

namespace WebSocketEngine.Upgrade

/-- How the patterns of each shape are written. -/
inductive Spells : List Char → Shape → Prop
  | anything : Spells ['/'] .anything
  | ending {dir ext : List Char}
      (rooted : dir = [] ∨ dir.head? = some '/' ∧ dir.getLast? = some '/')
      (dotted : ext.head? = some '.') (single : '/' ∉ ext) (plain : '*' ∉ dir) (only : '*' ∉ ext) :
    Spells (dir ++ '*' :: ext) (.ending dir ext)
  | below {base : List Char} (rooted : base = [] ∨ base.head? = some '/') (plain : '*' ∉ base) :
    Spells (base ++ ['/', '*']) (.below base)
  | exact {cs : List Char} (rooted : cs.head? = some '/') (plain : '*' ∉ cs) (other : cs ≠ ['/']) :
    Spells cs .exact

/-- The path is the text with something in place of a wildcard. -/
def Filled (text path : List Char) : Prop :=
  ∃ front back filling, text = front ++ '*' :: back ∧ path = front ++ filling ++ back

/-- Which paths a pattern covers, by its text and its shape. -/
def Covering (text path : List Char) : Shape → Prop
  | .anything => True
  | .exact => path = text
  | .ending _ _ => Filled text path
  | .below base => base = [] ∨ path = base ∨ Filled text path

namespace Pattern

variable {cs dir ext base : List Char} {shape : Shape}

/-! ### Parts of a text -/

theorem exists_cons_of_head? {c : Char} (first : cs.head? = some c) : ∃ rest, cs = c :: rest := by
  cases cs with
  | nil => cases first
  | cons d rest => exact ⟨rest, congrArg (· :: rest) (Option.some.inj first)⟩

theorem isExtension_iff : isExtension cs = true ↔ cs.head? = some '.' ∧ '/' ∉ cs := by
  unfold isExtension
  split
  · simp
  · next other =>
    refine iff_of_false Bool.false_ne_true fun ⟨dotted, _⟩ => ?_
    obtain ⟨rest, rfl⟩ := exists_cons_of_head? dotted
    exact other rest rfl

theorem before?_eq_some_iff {ending front : List Char} :
    before? ending cs = some front ↔ cs = front ++ ending := by
  unfold before?
  split
  · next ends =>
    obtain ⟨front', rfl⟩ := List.isSuffixOf_iff_suffix.mp ends
    simp
  · next no =>
    refine iff_of_false (Option.some_ne_none front).symm fun whole => no ?_
    exact List.isSuffixOf_iff_suffix.mpr ⟨front, whole.symm⟩

theorem after?_eq_some_iff {beginning rest : List Char} :
    after? beginning cs = some rest ↔ cs = beginning ++ rest := by
  unfold after?
  split
  · next begins =>
    obtain ⟨rest', rfl⟩ := List.isPrefixOf_iff_prefix.mp begins
    simp
  · next no =>
    refine iff_of_false (Option.some_ne_none rest).symm fun whole => no ?_
    exact List.isPrefixOf_iff_prefix.mpr ⟨rest, whole.symm⟩

/-! ### The wildcard -/

theorem count_star : (dir ++ '*' :: ext).count '*' = dir.count '*' + ext.count '*' + 1 := by
  rw [List.count_append, List.count_cons_self, Nat.add_assoc]

theorem plain_of_count (single : (dir ++ '*' :: ext).count '*' ≤ 1) : '*' ∉ dir ∧ '*' ∉ ext := by
  rw [count_star] at single
  exact ⟨List.count_eq_zero.mp (by omega), List.count_eq_zero.mp (by omega)⟩

theorem count_of_plain (plain : '*' ∉ dir) (only : '*' ∉ ext) :
    (dir ++ '*' :: ext).count '*' = 1 := by
  rw [count_star, List.count_eq_zero.mpr plain, List.count_eq_zero.mpr only]

/-- A text is cut at its first wildcard. -/
theorem cut_of_plain (plain : '*' ∉ dir) (ext : List Char) :
    (dir ++ '*' :: ext).takeWhile (· ≠ '*') = dir ∧
      (dir ++ '*' :: ext).dropWhile (· ≠ '*') = '*' :: ext := by
  have before (c : Char) (mem : c ∈ dir) : decide (c ≠ '*') = true :=
    decide_eq_true fun same => plain (same ▸ mem)
  rw [List.takeWhile_append_of_pos before, List.dropWhile_append_of_pos before]
  simp

/-- Where a text is cut, there is a wildcard. -/
theorem cut_eq {c : Char} (cut : cs.dropWhile (· ≠ '*') = c :: ext) :
    cs = cs.takeWhile (· ≠ '*') ++ '*' :: ext := by
  have star : c = '*' := by
    have first := List.head?_dropWhile_not (fun c => decide (c ≠ '*')) cs
    rw [cut] at first
    simpa using first
  have parts := List.takeWhile_append_dropWhile (p := fun c => decide (c ≠ '*')) (l := cs)
  rw [cut, star] at parts
  exact parts.symm

/-- A text with one wildcard has one place for it. -/
theorem star_unique {front back : List Char} (plain : '*' ∉ dir) (only : '*' ∉ ext)
    (same : dir ++ '*' :: ext = front ++ '*' :: back) : front = dir ∧ back = ext := by
  have single : (front ++ '*' :: back).count '*' ≤ 1 := by
    rw [← same, count_of_plain plain only]
  have first := (cut_of_plain plain ext).1
  rw [same, (cut_of_plain (plain_of_count single).1 back).1] at first
  subst first
  exact ⟨rfl, (List.cons.inj (List.append_cancel_left same)).2.symm⟩

/-! ### Reading -/

/-- A text from the root is read by where its wildcard is. -/
theorem shapeOf_rooted {rest : List Char} (single : ('/' :: rest).count '*' ≤ 1)
    (other : '/' :: rest ≠ ['/']) :
    shapeOf ('/' :: rest) =
      match before? ['/', '*'] ('/' :: rest) with
      | some base => .ok (.below base)
      | none =>
        match ('/' :: rest).dropWhile (· ≠ '*') with
        | [] => .ok .exact
        | _ :: ext =>
          if ['/'].isSuffixOf (('/' :: rest).takeWhile (· ≠ '*')) && isExtension ext then
            .ok (.ending (('/' :: rest).takeWhile (· ≠ '*')) ext)
          else .error .badWildcard :=
  (if_neg (List.cons_ne_nil _ _)).trans ((if_neg (Nat.not_lt.mpr single)).trans (if_neg other))

theorem spells_of_rooted {rest : List Char} (single : ('/' :: rest).count '*' ≤ 1)
    (other : '/' :: rest ≠ ['/']) (read : shapeOf ('/' :: rest) = .ok shape) :
    Spells ('/' :: rest) shape := by
  rw [shapeOf_rooted single other] at read
  split at read
  · next base found =>
    cases read
    have whole := before?_eq_some_iff.mp found
    rw [whole, List.append_cons] at single
    rw [whole]
    refine .below ?_ fun mem => (plain_of_count single).1 (List.mem_append_left _ mem)
    cases base with
    | nil => exact .inl rfl
    | cons c base => exact .inr (congrArg List.head? whole).symm
  · split at read
    · next uncut =>
      cases read
      rw [List.dropWhile_eq_nil_iff] at uncut
      exact .exact rfl (fun mem => of_decide_eq_true (uncut _ mem) rfl) other
    · next ext cut =>
      have whole := cut_eq cut
      have rooted : (('/' :: rest).takeWhile (· ≠ '*')).head? = some '/' := rfl
      generalize ('/' :: rest).takeWhile (· ≠ '*') = dir at read whole rooted
      rw [whole] at single ⊢
      obtain ⟨plain, only⟩ := plain_of_count single
      split at read
      · next shaped =>
        cases read
        obtain ⟨slashed, extension⟩ := (Bool.and_eq_true _ _).mp shaped
        obtain ⟨dotted, segment⟩ := isExtension_iff.mp extension
        obtain ⟨front, rfl⟩ := List.isSuffixOf_iff_suffix.mp slashed
        exact .ending (.inr ⟨rooted, List.getLast?_concat⟩) dotted segment plain only
      · cases read

/-- What is read is spelled that way. -/
theorem spells_of_shapeOf (read : shapeOf cs = .ok shape) : Spells cs shape := by
  have whole := read
  unfold shapeOf at read
  split at read
  · cases read
  split at read
  · cases read
  next single =>
  split at read
  · next slash =>
    cases read
    rw [slash]
    exact .anything
  next other =>
  split at read
  · next _ ext _ =>
    split at read
    · next extension =>
      cases read
      obtain ⟨dotted, segment⟩ := isExtension_iff.mp extension
      have single : ([] ++ '*' :: ext).count '*' ≤ 1 := Nat.not_lt.mp single
      exact .ending (.inl rfl) dotted segment List.not_mem_nil (plain_of_count single).2
    · cases read
  · exact spells_of_rooted (Nat.not_lt.mp single) other whole
  · cases read

/-- A wildcard with an extension is not the last character. -/
theorem before?_of_ending (plain : '*' ∉ dir) (dotted : ext.head? = some '.') (only : '*' ∉ ext) :
    before? ['/', '*'] (dir ++ '*' :: ext) = none := by
  refine Option.eq_none_iff_forall_ne_some.mpr fun base found => ?_
  have same := before?_eq_some_iff.mp found
  rw [List.append_cons base] at same
  rw [← (star_unique plain only same).2] at dotted
  cases dotted

theorem shapeOf_of_below (rooted : base = [] ∨ base.head? = some '/') (plain : '*' ∉ base) :
    shapeOf (base ++ ['/', '*']) = .ok (.below base) := by
  have single : (base ++ ['/', '*']).count '*' ≤ 1 := by simp [List.count_eq_zero.mpr plain]
  have found : before? ['/', '*'] (base ++ ['/', '*']) = some base := before?_eq_some_iff.mpr rfl
  have other : base ++ ['/', '*'] ≠ ['/'] := fun same => by
    have long := congrArg List.length same
    simp at long
  obtain ⟨rest, whole⟩ : ∃ rest, base ++ ['/', '*'] = '/' :: rest := by
    rcases rooted with rfl | rooted
    · exact ⟨['*'], rfl⟩
    · obtain ⟨front, rfl⟩ := exists_cons_of_head? rooted
      exact ⟨front ++ ['/', '*'], rfl⟩
  rw [whole] at single found other ⊢
  rw [shapeOf_rooted single other, found]

theorem shapeOf_of_plain (rooted : cs.head? = some '/') (plain : '*' ∉ cs) (other : cs ≠ ['/']) :
    shapeOf cs = .ok .exact := by
  obtain ⟨rest, rfl⟩ := exists_cons_of_head? rooted
  have starless : ('/' :: rest).count '*' = 0 := List.count_eq_zero.mpr plain
  have single : ('/' :: rest).count '*' ≤ 1 := starless.le.trans (Nat.zero_le 1)
  have unended : before? ['/', '*'] ('/' :: rest) = none := by
    refine Option.eq_none_iff_forall_ne_some.mpr fun base found => plain ?_
    rw [before?_eq_some_iff.mp found]
    simp
  have uncut : ('/' :: rest).dropWhile (· ≠ '*') = [] :=
    List.dropWhile_eq_nil_iff.mpr fun c mem => decide_eq_true fun same => plain (same ▸ mem)
  rw [shapeOf_rooted single other, unended, uncut]

theorem shapeOf_of_ending (rooted : dir = [] ∨ dir.head? = some '/' ∧ dir.getLast? = some '/')
    (dotted : ext.head? = some '.') (segment : '/' ∉ ext) (plain : '*' ∉ dir) (only : '*' ∉ ext) :
    shapeOf (dir ++ '*' :: ext) = .ok (.ending dir ext) := by
  have extension := isExtension_iff.mpr ⟨dotted, segment⟩
  have single := count_of_plain plain only
  rcases rooted with rfl | ⟨rooted, slash⟩
  · rw [List.nil_append] at single ⊢
    rw [shapeOf, if_neg (List.cons_ne_nil _ _), if_neg (by omega), if_neg (by simp)]
    exact if_pos extension
  · obtain ⟨cut, rest⟩ := cut_of_plain plain ext
    have unended := before?_of_ending plain dotted only
    have slashed : ['/'].isSuffixOf dir = true := by
      obtain ⟨front, rfl⟩ := List.getLast?_eq_some_iff.mp slash
      exact List.isSuffixOf_iff_suffix.mpr ⟨front, rfl⟩
    obtain ⟨front, rfl⟩ := exists_cons_of_head? rooted
    rw [List.cons_append] at single unended cut rest ⊢
    rw [shapeOf_rooted single.le (by simp), unended, rest, cut, slashed]
    exact if_pos extension

theorem shapeOf_of_spells (spelled : Spells cs shape) : shapeOf cs = .ok shape := by
  cases spelled with
  | anything => rfl
  | ending rooted dotted segment plain only =>
    exact shapeOf_of_ending rooted dotted segment plain only
  | below rooted plain => exact shapeOf_of_below rooted plain
  | exact rooted plain other => exact shapeOf_of_plain rooted plain other

theorem shapeOf_eq_ok_iff : shapeOf cs = .ok shape ↔ Spells cs shape :=
  ⟨spells_of_shapeOf, shapeOf_of_spells⟩

theorem parse_eq_ok_iff {raw : String} {p : Pattern} :
    parse raw = .ok p ↔ p.raw = raw ∧ Spells raw.toList p.shape := by
  rw [← shapeOf_eq_ok_iff, parse]
  cases read : shapeOf raw.toList with
  | error fault => exact iff_of_false nofun fun spelled => nomatch spelled.2
  | ok shape =>
    constructor
    · rintro ⟨⟩
      exact ⟨rfl, rfl⟩
    · rintro ⟨rfl, same⟩
      rw [Except.ok.inj same]
      rfl

theorem parse_eq_error {raw : String} (other : ¬∃ shape, Spells raw.toList shape) :
    ∃ fault, parse raw = .error fault := by
  cases read : parse raw with
  | error fault => exact ⟨fault, rfl⟩
  | ok p => exact absurd ⟨p.shape, (parse_eq_ok_iff.mp read).2⟩ other

/-! ### Covering -/

variable {p : Pattern} {path : String}

theorem covers_of_exact (shaped : p.shape = .exact) :
    p.covers path = true ↔ path.toList = p.raw.toList := by
  rw [covers, shaped]
  exact beq_iff_eq.trans String.toList_inj.symm

theorem covers_of_below (shaped : p.shape = .below base) :
    p.covers path = true ↔
      base = [] ∨ path.toList = base ∨ ∃ filling, path.toList = base ++ '/' :: filling := by
  rw [covers, shaped, Bool.or_eq_true, List.isEmpty_iff]
  refine or_congr_right ?_
  cases found : after? base path.toList with
  | none =>
    have unled (rest : List Char) : path.toList ≠ base ++ rest := fun whole => by
      rw [after?_eq_some_iff.mpr whole] at found
      cases found
    refine iff_of_false Bool.false_ne_true ?_
    rintro (whole | ⟨filling, whole⟩)
    · exact unled [] (whole.trans (List.append_nil base).symm)
    · exact unled _ whole
  | some rest =>
    rw [after?_eq_some_iff.mp found]
    cases rest with
    | nil => simp
    | cons c rest => simp

theorem covers_of_ending (shaped : p.shape = .ending dir ext) :
    p.covers path = true ↔ ∃ filling, path.toList = dir ++ filling ++ ext := by
  simp only [covers, shaped]
  cases found : after? dir path.toList with
  | none =>
    refine iff_of_false Bool.false_ne_true ?_
    rintro ⟨filling, whole⟩
    rw [List.append_assoc] at whole
    rw [after?_eq_some_iff.mpr whole] at found
    cases found
  | some rest =>
    rw [after?_eq_some_iff.mp found, List.isSuffixOf_iff_suffix]
    constructor
    · rintro ⟨filling, rfl⟩
      exact ⟨filling, (List.append_assoc ..).symm⟩
    · rintro ⟨filling, whole⟩
      rw [List.append_assoc] at whole
      exact ⟨filling, (List.append_cancel_left whole).symm⟩

/-- What fills a text with one wildcard stands between its two parts. -/
theorem filled_iff {path : List Char} (plain : '*' ∉ dir) (only : '*' ∉ ext) :
    Filled (dir ++ '*' :: ext) path ↔ ∃ filling, path = dir ++ filling ++ ext := by
  constructor
  · rintro ⟨front, back, filling, whole, rfl⟩
    obtain ⟨rfl, rfl⟩ := star_unique plain only whole
    exact ⟨filling, rfl⟩
  · rintro ⟨filling, rfl⟩
    exact ⟨dir, ext, filling, rfl, rfl⟩

theorem covers_iff {raw : String} (read : parse raw = .ok p) :
    p.covers path = true ↔ Covering raw.toList path.toList p.shape := by
  obtain ⟨rfl, spelled⟩ := parse_eq_ok_iff.mp read
  generalize shaped : p.shape = shape at spelled ⊢
  generalize written : p.raw.toList = text at spelled ⊢
  cases spelled with
  | anything =>
    rw [covers, shaped]
    exact iff_of_true rfl trivial
  | exact =>
    rw [covers_of_exact shaped, written]
    rfl
  | ending _ _ _ plain only => exact (covers_of_ending shaped).trans (filled_iff plain only).symm
  | @below base _ plain =>
    have slashed : '*' ∉ base ++ ['/'] := by simp [plain]
    have filled : Filled ((base ++ ['/']) ++ '*' :: []) path.toList ↔ _ :=
      filled_iff slashed List.not_mem_nil
    rw [List.append_assoc] at filled
    rw [covers_of_below shaped, Covering]
    refine or_congr_right (or_congr_right (Iff.trans ?_ filled.symm))
    simp

/-- The patterns are the texts of the grammar, a text of it is covered as it is spelled, and any
other text is turned away by its name. -/
theorem reads_its_grammar (raw : String) :
    (∀ p, parse raw = .ok p ↔ p.raw = raw ∧ Spells raw.toList p.shape) ∧
      ((¬∃ shape, Spells raw.toList shape) →
        ∃ fault, parse raw = .error fault ∧
          ∀ (ν : Type) (r : Routes ν) (v : ν), r.addText raw v = .error (.invalidPattern raw fault)) ∧
      ∀ p, parse raw = .ok p →
        ∀ path, p.covers path = true ↔ Covering raw.toList path.toList p.shape := by
  refine ⟨fun p => parse_eq_ok_iff, fun other => ?_, fun p read path => covers_iff read⟩
  obtain ⟨fault, read⟩ := parse_eq_error other
  refine ⟨fault, read, fun ν r v => ?_⟩
  rw [Routes.addText, read]

/-- A name may be its extension alone, but the directory's slash must be there. -/
theorem reads_its_grammar_rooms :
    ∃ p, parse "/rooms/*.ws" = .ok p ∧ Spells "/rooms/*.ws".toList p.shape ∧
      p.covers "/rooms/.ws" = true ∧ ¬p.covers "/rooms.ws" = true ∧
      Routes.empty.addText "/rooms*" () = .error (.invalidPattern "/rooms*" .badWildcard) := by
  obtain ⟨reads, -, covers⟩ := reads_its_grammar "/rooms/*.ws"
  obtain ⟨-, refuses, -⟩ := reads_its_grammar "/rooms*"
  have read : parse "/rooms/*.ws" =
      .ok ⟨"/rooms/*.ws", .ending "/rooms/".toList ".ws".toList⟩ := by decide
  have unread : shapeOf "/rooms*".toList = .error .badWildcard := by decide
  refine ⟨_, read, ((reads _).mp read).2, ?_, ?_, ?_⟩
  · exact (covers _ read _).mpr ⟨"/rooms/".toList, ".ws".toList, [], by decide, by decide⟩
  · rw [covers _ read]
    intro filled
    have parts : Filled ("/rooms/".toList ++ '*' :: ".ws".toList) "/rooms.ws".toList := filled
    obtain ⟨filling, whole⟩ := (filled_iff (by decide) (by decide)).mp parts
    have long := congrArg List.length whole
    rw [List.length_append, List.length_append] at long
    have short : "/rooms.ws".toList.length < "/rooms/".toList.length + ".ws".toList.length := by
      decide
    omega
  · obtain ⟨fault, why, turned⟩ := refuses fun ⟨shape, spelled⟩ => by
      cases unread.symm.trans (shapeOf_of_spells spelled)
    rw [parse, unread] at why
    cases why
    exact turned Unit .empty ()

end Pattern

end WebSocketEngine.Upgrade
