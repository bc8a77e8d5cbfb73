import WebSocketEngine.Proofs.Http.Lists
import WebSocketEngine.Upgrade.Endpoint

/-!
What a client offers, and what an endpoint takes of it.

    lines of a header ──▶ pieces ──▶ offers ──▶ the first one that is supported
                                            ──▶ those whose name is supported

Nothing on the way looks at the lines again, so requests with the same pieces come to the same end
(`settled_by_pieces`): blanks, empty elements, the ends of lines and lines that do not read back as
text make no difference.
-/

namespace WebSocketEngine.Upgrade

open Http (FieldName FieldValue Holds Readable)

namespace Request

/-- The lines of a header hold the same pieces in the same order. -/
def Alike (n : FieldName) (r s : Request) : Prop :=
  ∃ ps, Holds (r.headers.values n) ps ∧ Holds (s.headers.values n) ps

/-- One of the pieces in the `Connection` header is the word `upgrade`. -/
def NamesUpgrade (r : Request) : Prop :=
  ∃ ps, Holds (r.headers.values .connection) ps ∧
    ∃ t ∈ ps, Text.lowerAscii t.toList = "upgrade".toList

theorem tokens_of_alike {n : FieldName} {r s : Request} (alike : Alike n r s) :
    r.headers.tokens n = s.headers.tokens n := by
  obtain ⟨ps, left, right⟩ := alike
  rw [Http.holds_iff.mp left, Http.holds_iff.mp right]

theorem namesUpgrade_iff (r : Request) :
    r.NamesUpgrade ↔
      ∃ t ∈ r.headers.tokens .connection, Text.lowerAscii t.toList = "upgrade".toList := by
  simp only [NamesUpgrade, Http.holds_iff, exists_eq_left']

theorem isUpgrade_iff (r : Request) :
    r.isUpgrade = true ↔ r.NamesUpgrade ∧ r.method = "GET" ∧ r.plain? .upgrade = some "websocket" ∧
      r.plain? .webSocketVersion = some "13" ∧ r.headers.values .webSocketKey ≠ [] := by
  rw [namesUpgrade_iff]
  simp only [isUpgrade, Bool.and_eq_true, decide_eq_true_eq, List.any_eq_true]
  tauto

/-- A line that does not read back as text makes no difference. -/
theorem tokens_of_unreadable {n : FieldName} {r s : Request} {before after : List FieldValue}
    {v : FieldValue} (unreadable : ¬ Readable v.raw)
    (with_ : r.headers.values n = before ++ v :: after)
    (without : s.headers.values n = before ++ after) :
    r.headers.tokens n = s.headers.tokens n := by
  rw [Http.tokens_eq, Http.tokens_eq, with_, without]
  simp only [Http.tokensOf, List.filterMap_append,
    List.filterMap_cons_none (FieldValue.text?_eq_none unreadable)]

end Request

/-! ### What is taken -/

/-- The name of an offer: what comes before the first semicolon, without the blanks around it. -/
def Named (offer name : String) : Prop :=
  ∃ front rest, offer.toList = front ++ rest ∧ ';' ∉ front ∧ (∀ c ∈ rest.head?, c = ';') ∧
    Text.Padded name.toList front

namespace Endpoint

variable {σ : Type} {offer name : String}

theorem takeWhile_of_front {front rest : List Char} (plain : ';' ∉ front)
    (starts : ∀ c ∈ rest.head?, c = ';') :
    (front ++ rest).takeWhile (· ≠ ';') = front := by
  have passes : ∀ c ∈ front, decide (c ≠ ';') = true := by
    intro c mem
    exact decide_eq_true fun same => plain (same ▸ mem)
  rw [List.takeWhile_append_of_pos passes]
  cases rest with
  | nil => rw [List.takeWhile_nil, List.append_nil]
  | cons c rest =>
    rw [List.takeWhile_cons_of_neg (by simp [starts c rfl]), List.append_nil]

theorem named_iff : Named offer name ↔ extensionName offer = name := by
  rw [extensionName, ← String.toList_inj, String.toList_ofList]
  constructor
  · rintro ⟨front, rest, whole, plain, starts, padded⟩
    rw [whole, takeWhile_of_front plain starts]
    exact Text.trimBlank_of_padded padded
  · intro trimmed
    refine ⟨offer.toList.takeWhile (· ≠ ';'), offer.toList.dropWhile (· ≠ ';'),
      List.takeWhile_append_dropWhile.symm, ?_, ?_, Text.padded_iff.mpr trimmed⟩
    · intro mem
      simpa using List.mem_takeWhile_imp mem
    · intro c mem
      simpa using Text.head?_dropWhile offer.toList c mem

instance (offer name : String) : Decidable (Named offer name) :=
  decidable_of_iff (extensionName offer = name) named_iff.symm

/-- The first offer that is supported is taken. -/
theorem selectSubprotocol_eq_some_iff (e : Endpoint σ) (offers : List String) (o : String) :
    e.selectSubprotocol offers = some o ↔ o ∈ e.subprotocols ∧
      ∃ before after, offers = before ++ o :: after ∧ ∀ x ∈ before, x ∉ e.subprotocols := by
  simp [selectSubprotocol, List.find?_eq_some_iff_append]

theorem selectSubprotocol_eq_none_iff (e : Endpoint σ) (offers : List String) :
    e.selectSubprotocol offers = none ↔ ∀ o ∈ offers, o ∉ e.subprotocols := by
  simp [selectSubprotocol]

theorem selectExtensions_eq (e : Endpoint σ) (offers : List String) :
    e.selectExtensions offers =
      offers.filter fun o => ∃ name ∈ e.extensions, Named o name := by
  refine List.filter_congr fun o _ => ?_
  simp [named_iff]

end Endpoint

/-- The offers of a request are the pieces of its lines, and so is what decides whether `Connection`
    asks for an upgrade; requests whose lines hold the same pieces offer the same, and every
    endpoint takes the same of it: the first subprotocol that it supports, and the extensions whose
    names it does.  A line that does not read back as text makes no difference. -/
theorem settled_by_pieces {σ : Type} (r s : Request) (e : Endpoint σ) :
    (∀ ps, Holds (r.headers.values .webSocketProtocol) ps ↔ r.subprotocols = ps) ∧
    (∀ ps, Holds (r.headers.values .webSocketExtensions) ps ↔ r.extensions = ps) ∧
    (r.isUpgrade = true ↔ r.NamesUpgrade ∧ r.method = "GET" ∧
      r.plain? .upgrade = some "websocket" ∧ r.plain? .webSocketVersion = some "13" ∧
        r.headers.values .webSocketKey ≠ []) ∧
    (Request.Alike .connection r s → (r.NamesUpgrade ↔ s.NamesUpgrade)) ∧
    (Request.Alike .webSocketProtocol r s → r.subprotocols = s.subprotocols ∧
      e.selectSubprotocol r.subprotocols = e.selectSubprotocol s.subprotocols) ∧
    (Request.Alike .webSocketExtensions r s → r.extensions = s.extensions ∧
      e.selectExtensions r.extensions = e.selectExtensions s.extensions) ∧
    (∀ o, e.selectSubprotocol r.subprotocols = some o ↔ o ∈ e.subprotocols ∧
      ∃ before after, r.subprotocols = before ++ o :: after ∧ ∀ x ∈ before, x ∉ e.subprotocols) ∧
    (e.selectSubprotocol r.subprotocols = none ↔ ∀ o ∈ r.subprotocols, o ∉ e.subprotocols) ∧
    (e.selectExtensions r.extensions =
      r.extensions.filter fun o => ∃ name ∈ e.extensions, Named o name) ∧
    ∀ n before v after, ¬ Readable v.raw → r.headers.values n = before ++ v :: after →
      s.headers.values n = before ++ after → r.headers.tokens n = s.headers.tokens n := by
  refine ⟨fun _ => Http.holds_iff, fun _ => Http.holds_iff, r.isUpgrade_iff, ?_, ?_, ?_,
    e.selectSubprotocol_eq_some_iff _, e.selectSubprotocol_eq_none_iff _, e.selectExtensions_eq _,
    ?_⟩
  · intro alike
    rw [Request.namesUpgrade_iff, Request.namesUpgrade_iff, Request.tokens_of_alike alike]
  · intro alike
    have same : r.subprotocols = s.subprotocols := Request.tokens_of_alike alike
    exact ⟨same, by rw [same]⟩
  · intro alike
    have same : r.extensions = s.extensions := Request.tokens_of_alike alike
    exact ⟨same, by rw [same]⟩
  · intro n before v after unreadable with_ without
    exact Request.tokens_of_unreadable unreadable with_ without

/-- One line, and three lines of which one is no text. -/
theorem settled_by_pieces_spread :
    let line : FieldValue := ⟨"chat, superchat", by rw [String.all_bool_eq]; decide⟩
    let first : FieldValue := ⟨" ,chat\t", by rw [String.all_bool_eq]; decide⟩
    let second : FieldValue := ⟨"é", by rw [String.all_bool_eq]; decide⟩
    let third : FieldValue := ⟨",superchat ,,", by rw [String.all_bool_eq]; decide⟩
    let r : Request := ⟨"GET", "/", ⟨[(.webSocketProtocol, line)]⟩, none⟩
    let s : Request := ⟨"GET", "/", ⟨[first, second, third].map ((.webSocketProtocol, ·))⟩, none⟩
    let app : Application Unit := ⟨.none, fun s _ => (s, ⟨[], .succeed⟩), fun _ => false⟩
    let e : Endpoint Unit := ⟨app, (), .nothing, ["superchat"], []⟩
    Request.Alike .webSocketProtocol r s ∧ r.subprotocols = ["chat", "superchat"] ∧
      s.subprotocols = ["chat", "superchat"] ∧
        e.selectSubprotocol s.subprotocols = some "superchat" := by
  intro line first second third r s app e
  have one : Holds [line] (["chat", "superchat"] ++ []) :=
    .text (by decide) (Http.lists_iff.mpr (by decide)) .nil
  have three : Holds [first, second, third] (["chat"] ++ (["superchat"] ++ [])) :=
    .text (by decide) (Http.lists_iff.mpr (by decide)) <| .other (by decide) <|
      .text (by decide) (Http.lists_iff.mpr (by decide)) .nil
  have alike : Request.Alike .webSocketProtocol r s := ⟨_, one, three⟩
  obtain ⟨offers, -, -, -, same, -⟩ := settled_by_pieces r s e
  have left : r.subprotocols = ["chat", "superchat"] := (offers _).mp one
  obtain ⟨offered, taken⟩ := same alike
  refine ⟨alike, left, offered ▸ left, ?_⟩
  rw [← taken, left]
  decide

end WebSocketEngine.Upgrade
