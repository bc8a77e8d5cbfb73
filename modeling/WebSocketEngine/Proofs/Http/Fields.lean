import WebSocketEngine.Http.Headers
import Mathlib.Data.List.TakeDrop
import Mathlib.Data.List.TakeWhile

/-!
What reads back from header fields, and what can be written to them again.

A name that is set has that one value and no other name has changed (`values_insert`,
`values_insert_of_ne`).  The tokens of a header are text, and every text can stand in a header
(`readable_of_mem_tokens`, `exists_value`).
-/

namespace WebSocketEngine

/-! ### Characters of tokens -/

namespace Text

theorem mem_of_mem_trimBlank {c : Char} {cs : List Char} (mem : c ∈ trimBlank cs) : c ∈ cs := by
  unfold trimBlank at mem
  rw [List.mem_reverse] at mem
  have inner := (List.dropWhile_suffix _).subset mem
  rw [List.mem_reverse] at inner
  exact (List.dropWhile_suffix _).subset inner

theorem mem_of_mem_pieces {sep c : Char} :
    ∀ {cs p : List Char}, p ∈ pieces sep cs → c ∈ p → c ∈ cs
  | [], p, piece, mem => by
    rw [pieces, List.mem_singleton] at piece
    rwa [piece] at mem
  | d :: cs, p, piece, mem => by
    rw [pieces] at piece
    split at piece
    · rcases List.mem_cons.mp piece with rfl | later
      · cases mem
      · exact List.mem_cons_of_mem _ (mem_of_mem_pieces later mem)
    · split at piece
      · next none =>
        rw [List.mem_singleton.mp piece] at mem
        rw [List.mem_singleton.mp mem]
        exact List.mem_cons_self
      · next q qs split_ =>
        rcases List.mem_cons.mp piece with rfl | later
        · rcases List.mem_cons.mp mem with rfl | inner
          · exact List.mem_cons_self
          · exact List.mem_cons_of_mem _
              (mem_of_mem_pieces (by rw [split_]; exact List.mem_cons_self) inner)
        · exact List.mem_cons_of_mem _
            (mem_of_mem_pieces (by rw [split_]; exact List.mem_cons_of_mem _ later) mem)

end Text

namespace Http

/-- All of it reads back as text. -/
def Readable (s : String) : Prop := ∀ c ∈ s.toList, isTextChar c = true

instance (s : String) : Decidable (Readable s) :=
  decidable_of_iff (s.toList.all isTextChar = true) List.all_eq_true

theorem isValueChar_of_isTextChar {c : Char} (text : isTextChar c = true) :
    isValueChar c = true := by
  simp only [isTextChar, isValueChar, Bool.or_eq_true, Bool.and_eq_true, decide_eq_true_eq] at text ⊢
  rcases text with tab | ⟨low, high⟩
  · exact .inl tab
  · refine .inr ⟨low, ?_⟩
    rintro rfl
    exact absurd high (Char.lt_irrefl _)

/-! ### Values -/

namespace FieldValue

theorem raw_of_ofText? {s : String} {v : FieldValue} (written : ofText? s = some v) :
    v.raw = s := by
  unfold ofText? at written
  split at written
  · rw [← Option.some.inj written]
  · cases written

/-- Every text can stand in a header. -/
theorem exists_value {s : String} (readable : Readable s) : ∃ v, ofText? s = some v := by
  have allowed : s.all isValueChar = true := by
    rw [String.all_bool_eq, List.all_eq_true]
    exact fun c mem => isValueChar_of_isTextChar (readable c mem)
  exact ⟨⟨s, allowed⟩, dif_pos allowed⟩

theorem text?_of_readable {s : String} {allowed : s.all isValueChar = true}
    (readable : Readable s) : text? ⟨s, allowed⟩ = some s := by
  have all : s.all isTextChar = true := by
    rw [String.all_bool_eq, List.all_eq_true]
    exact readable
  rw [text?, if_pos all]

theorem readable_of_text? {v : FieldValue} {t : String} (text : v.text? = some t) :
    Readable t := by
  unfold text? at text
  split at text
  · next all =>
    rw [String.all_bool_eq, List.all_eq_true] at all
    rw [← Option.some.inj text]
    exact all
  · cases text

end FieldValue

/-! ### Fields -/

namespace Headers

variable {h : Headers} {m n : FieldName} {v : FieldValue}

theorem values_append : (h.append n v).values n = h.values n ++ [v] := by
  rw [values, append, List.filter_append, List.filter_cons_of_pos (by simp), List.filter_nil,
    List.map_append]
  rfl

theorem values_append_of_ne (ne : m ≠ n) : (h.append n v).values m = h.values m := by
  rw [values, append, List.filter_append, List.filter_cons_of_neg (by simpa using ne.symm),
    List.filter_nil, List.append_nil, values]

theorem insert_lines (h : Headers) (n : FieldName) (v : FieldValue) :
    (h.insert n v).lines = h.lines.takeWhile (·.1 ≠ n) ++ (n, v) ::
      (h.lines.dropWhile (·.1 ≠ n)).tail.filter (·.1 ≠ n) := by
  unfold insert
  rw [List.span_eq_takeWhile_dropWhile]
  cases h.lines.dropWhile (·.1 ≠ n) <;> rfl

theorem values_insert : (h.insert n v).values n = [v] := by
  have before : (h.lines.takeWhile (·.1 ≠ n)).filter (·.1 = n) = [] := by
    rw [List.filter_eq_nil_iff]
    intro e mem
    simpa using List.mem_takeWhile_imp mem
  have after (ls : List (FieldName × FieldValue)) :
      (ls.filter (·.1 ≠ n)).filter (·.1 = n) = [] := by
    simp
  rw [values, insert_lines, List.filter_append, before, List.filter_cons_of_pos (by simp), after]
  rfl

theorem values_insert_of_ne (ne : m ≠ n) : (h.insert n v).values m = h.values m := by
  have other (ls : List (FieldName × FieldValue)) :
      (ls.filter (·.1 ≠ n)).filter (·.1 = m) = ls.filter (·.1 = m) := by
    rw [List.filter_filter]
    refine List.filter_congr fun e _ => ?_
    by_cases same : e.1 = m <;> simp [same, ne]
  have tail : (h.lines.dropWhile (·.1 ≠ n)).tail.filter (·.1 = m) =
      (h.lines.dropWhile (·.1 ≠ n)).filter (·.1 = m) := by
    cases rest : h.lines.dropWhile (·.1 ≠ n) with
    | nil => rfl
    | cons e after =>
      have stopped := List.head?_dropWhile_not (·.1 ≠ n) h.lines
      rw [rest] at stopped
      have same : e.1 = n := by simpa using stopped
      rw [List.tail_cons, List.filter_cons_of_neg (by simp [same, ne.symm])]
  rw [values, values, insert_lines, List.filter_append,
    List.filter_cons_of_neg (by simp [ne.symm]), other, tail, ← List.filter_append,
    List.takeWhile_append_dropWhile]

/-- The tokens of a header are text. -/
theorem readable_of_mem_tokens {t : String} (mem : t ∈ h.tokens n) : Readable t := by
  simp only [tokens, List.mem_map, List.mem_filter, List.mem_flatMap, List.mem_filterMap] at mem
  obtain ⟨p, ⟨⟨s, ⟨v, -, text⟩, q, piece, rfl⟩, -⟩, rfl⟩ := mem
  intro c mem
  rw [String.toList_ofList] at mem
  exact FieldValue.readable_of_text? text c
    (Text.mem_of_mem_pieces piece (Text.mem_of_mem_trimBlank mem))

end Headers

end Http

end WebSocketEngine
