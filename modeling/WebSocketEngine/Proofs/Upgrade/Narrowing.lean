import WebSocketEngine.Proofs.Upgrade.Routing

/-!
Patterns within patterns.

    p is within q         every path that p covers is covered by q

    anything, exact       p and q are the same
    below base            q's base is the beginning of p's
    dir*ext               q's dir is the beginning of p's, q's ext the end of p's

Of two patterns of one shape the one within the other is the longer of the two in what counts for
its shape, so it is the more specific one (`eq_or_lighter_of_within`).  What is within a pattern
shows at one path: the pattern's own text, or its base.
-/

namespace WebSocketEngine.Upgrade

namespace Pattern

variable {p q : Pattern} {base base' dir dir' ext ext' : List Char}

/-- Every path that `p` covers is covered by `q`. -/
def Within (p q : Pattern) : Prop := ∀ path, p.covers path = true → q.covers path = true

theorem size_raw : p.raw.utf8ByteSize = (String.ofList p.raw.toList).utf8ByteSize := by
  rw [String.ofList_toList]

/-! ### One shape at a time -/

theorem raw_eq_of_exact (shapedp : p.shape = .exact) (shapedq : q.shape = .exact)
    (within : p.Within q) : p.raw.toList = q.raw.toList :=
  (covers_of_exact shapedq).mp (within _ ((covers_of_exact shapedp).mpr rfl))

theorem prefix_of_within (shapedp : p.shape = .below base) (shapedq : q.shape = .below base')
    (within : p.Within q) : base' <+: base := by
  have own : p.covers (String.ofList base) = true :=
    (covers_of_below shapedp).mpr (.inr (.inl String.toList_ofList))
  have led := prefix_of_covers shapedq (within _ own)
  rwa [String.toList_ofList] at led

/-- What a wildcard can stand for within another wildcard's text. -/
theorem within_iff_of_endings (shapedp : p.shape = .ending dir ext)
    (shapedq : q.shape = .ending dir' ext') (plain : '*' ∉ dir) (only : '*' ∉ ext)
    (plain' : '*' ∉ dir') (only' : '*' ∉ ext') :
    p.Within q ↔ dir' <+: dir ∧ ext' <:+ ext := by
  constructor
  · intro within
    have own : p.covers (String.ofList (dir ++ ['*'] ++ ext)) = true :=
      (covers_of_ending shapedp).mpr ⟨['*'], String.toList_ofList⟩
    obtain ⟨filling, whole⟩ := (covers_of_ending shapedq).mp (within _ own)
    rw [String.toList_ofList] at whole
    have star : '*' ∈ filling := by
      have mem : '*' ∈ dir' ++ filling ++ ext' := by simp [← whole]
      simpa [plain', only'] using mem
    obtain ⟨front, back, rfl⟩ := List.append_of_mem star
    have same : dir ++ '*' :: ext = (dir' ++ front) ++ '*' :: (back ++ ext') := by
      simpa using whole
    obtain ⟨first, last⟩ := star_unique plain only same
    exact ⟨⟨front, first⟩, ⟨back, last⟩⟩
  · rintro ⟨⟨front, rfl⟩, ⟨back, rfl⟩⟩ path covered
    obtain ⟨filling, whole⟩ := (covers_of_ending shapedp).mp covered
    refine (covers_of_ending shapedq).mpr ⟨front ++ filling ++ back, ?_⟩
    simpa using whole

theorem parts_of_ending (read : parse p.raw = .ok p) (shaped : p.shape = .ending dir ext) :
    p.raw.toList = dir ++ '*' :: ext ∧ '*' ∉ dir ∧ '*' ∉ ext := by
  have spelled := (parse_eq_ok_iff.mp read).2
  generalize p.raw.toList = text at spelled ⊢
  rw [shaped] at spelled
  cases spelled with
  | ending _ _ _ plain only => exact ⟨rfl, plain, only⟩

/-! ### Specificity -/

/-- Of two patterns of one shape the one within the other is the longer. -/
theorem eq_or_lighter_of_within (readp : parse p.raw = .ok p) (readq : parse q.raw = .ok q)
    (alike : p.rank = q.rank) (within : p.Within q) : q = p ∨ q.weight < p.weight := by
  unfold weight
  rcases shapes_of_rank alike with ⟨shapedp, shapedq⟩ | ⟨shapedp, shapedq⟩ |
    ⟨base, base', shapedp, shapedq⟩ | ⟨dir, ext, dir', ext', shapedp, shapedq⟩
  · refine .inl (eq_of_raw readq readp ?_)
    rw [raw_of_anything readp shapedp, raw_of_anything readq shapedq]
  · exact .inl (eq_of_raw readq readp (raw_eq_of_exact shapedp shapedq within).symm)
  · rw [shapedp, shapedq]
    refine (eq_or_shorter (prefix_of_within shapedp shapedq within)).imp_left fun bases => ?_
    refine eq_of_raw readq readp ?_
    rw [raw_of_below readp shapedp, raw_of_below readq shapedq, bases]
  · rw [shapedp, shapedq]
    obtain ⟨writtenp, plain, only⟩ := parts_of_ending readp shapedp
    obtain ⟨writtenq, plain', only'⟩ := parts_of_ending readq shapedq
    obtain ⟨⟨front, rfl⟩, ⟨back, rfl⟩⟩ :=
      (within_iff_of_endings shapedp shapedq plain only plain' only').mp within
    have longer : p.raw.utf8ByteSize =
        q.raw.utf8ByteSize + (String.ofList (front ++ back)).utf8ByteSize := by
      rw [size_raw, size_raw, writtenp, writtenq, List.append_cons, List.append_cons dir']
      simp only [size_append]
      omega
    by_cases fills : front ++ back = []
    · obtain ⟨rfl, rfl⟩ := List.append_eq_nil_iff.mp fills
      refine .inl (eq_of_raw readq readp ?_)
      rw [writtenp, writtenq, List.append_nil, List.nil_append]
    · have long := mt size_eq_zero_iff.mp fills
      have lighter : q.raw.utf8ByteSize < p.raw.utf8ByteSize := by omega
      exact .inr lighter

theorem eq_or_less_specific_of_within (readp : parse p.raw = .ok p) (readq : parse q.raw = .ok q)
    (alike : p.rank = q.rank) (within : p.Within q) :
    q = p ∨ q.specificity < p.specificity :=
  (eq_or_lighter_of_within readp readq alike within).imp_right (specificity_lt_of_rank alike)

/-- Of two patterns of one shape the one within the other is the more specific one, and equally
specific only if they are the same; so the wider one is never found where both cover a path. -/
theorem narrower_wins {s t : String} (readp : parse s = .ok p) (readq : parse t = .ok q)
    (alike : p.rank = q.rank) (within : ∀ path, p.covers path = true → q.covers path = true) :
    q.specificity ≤ p.specificity ∧ (q.specificity = p.specificity → q = p) ∧
      (q ≠ p → ∀ (ν : Type) (r : Routes ν) (path : String),
        p ∈ r.patterns → p.covers path = true →
          ∃ e, r.find? path = some e ∧ p.specificity ≤ e.1.specificity ∧ e.1 ≠ q) := by
  obtain ⟨rfl, -⟩ := parse_eq_ok_iff.mp readp
  obtain ⟨rfl, -⟩ := parse_eq_ok_iff.mp readq
  rcases eq_or_less_specific_of_within readp readq alike within with rfl | below
  · exact ⟨le_rfl, fun _ => rfl, fun other => absurd rfl other⟩
  refine ⟨below.le, fun same => absurd same below.ne, fun _ ν r path mem covered => ?_⟩
  obtain ⟨e, found, above⟩ := Routes.exists_find? mem covered
  refine ⟨e, found, above, ?_⟩
  rintro rfl
  exact above.not_gt below

/-- `*.ws` gives way below `/rooms/a/`. -/
theorem narrower_wins_directory :
    let p : Pattern := ⟨"/rooms/a/*.ws", .ending "/rooms/a/".toList ".ws".toList⟩
    let q : Pattern := ⟨"*.ws", .ending [] ".ws".toList⟩
    parse "/rooms/a/*.ws" = .ok p ∧ parse "*.ws" = .ok q ∧ p.rank = q.rank ∧
      (∀ path, p.covers path = true → q.covers path = true) ∧ q.specificity ≤ p.specificity ∧
      ∃ e, (⟨[(q, 1), (p, 2)]⟩ : Routes ℕ).find? "/rooms/a/b.ws" = some e ∧
        p.specificity ≤ e.1.specificity ∧ e.1 ≠ q := by
  intro p q
  have readp : parse "/rooms/a/*.ws" = .ok p := by decide
  have readq : parse "*.ws" = .ok q := by decide
  have within : p.Within q :=
    (within_iff_of_endings rfl rfl (by decide) (by decide) (by decide) (by decide)).mpr
      ⟨List.nil_prefix, List.suffix_rfl⟩
  obtain ⟨above, -, wins⟩ := narrower_wins readp readq rfl within
  refine ⟨readp, readq, rfl, within, above, ?_⟩
  exact wins (by decide) ℕ _ "/rooms/a/b.ws" (by decide) (by decide)

end Pattern

end WebSocketEngine.Upgrade
