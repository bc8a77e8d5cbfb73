import WebSocketEngine.Proofs.Assembly.Reference

/-!
Messages, cut up in any way.

`Carries` says that frames carry messages: each message in one frame or in many, cut anywhere, with
PING and PONG frames anywhere in between.  The reference rules on such frames as it should: nothing
is refused, and the last frame of each message delivers it (`rule_of_carries`).
-/

namespace WebSocketEngine.Assembly

open Utf8 (WellFormed Begins textOf)

/-- The frame is the last one of a message. -/
def completes (f : Frame) : Bool := f.fin && f.op.isData

/-- The frames carry the messages; the first of them has the kind and begins with the bytes of the
    open part, if there is one. -/
inductive Carries : Option (MessageKind × Bytes) → List Message → List Frame → Prop
  | done : Carries none [] []
  | control {part : Option (MessageKind × Bytes)} {ms : List Message} {f : Frame}
      {fs : List Frame} :
    f.op = .ping ∨ f.op = .pong → Carries part ms fs → Carries part ms (f :: fs)
  | whole {ms : List Message} {fs : List Frame} (m : Message) :
    Carries none ms fs → Carries none (m :: ms) (⟨m.kind.op, true, m.bytes⟩ :: fs)
  | first {ms : List Message} {fs : List Frame} (kind : MessageKind) (chunk : Bytes) :
    Carries (some (kind, chunk)) ms fs → Carries none ms (⟨kind.op, false, chunk⟩ :: fs)
  | more {kind : MessageKind} {before : Bytes} {ms : List Message} {fs : List Frame}
      (chunk : Bytes) :
    Carries (some (kind, before ++ chunk)) ms fs →
      Carries (some (kind, before)) ms (⟨.continuation, false, chunk⟩ :: fs)
  | last {before : Bytes} {ms : List Message} {fs : List Frame} (m : Message) (chunk : Bytes) :
    m.bytes = before ++ chunk → Carries none ms fs →
      Carries (some (m.kind, before)) (m :: ms) (⟨.continuation, true, chunk⟩ :: fs)

/-- What is open belongs to the next message. -/
theorem Carries.next {kind : MessageKind} {before : Bytes} {ms : List Message} {fs : List Frame}
    (carried : Carries (some (kind, before)) ms fs) :
    ∃ m ∈ ms, m.kind = kind ∧ before <+: m.bytes := by
  generalize opened : some (kind, before) = part at carried
  induction carried generalizing before with
  | done | whole | first => cases opened
  | control _ _ ih => exact ih opened
  | more chunk _ ih =>
    cases opened
    obtain ⟨m, mem, same, begun⟩ := ih rfl
    exact ⟨m, mem, same, (List.prefix_append _ chunk).trans begun⟩
  | last m chunk ended _ _ =>
    cases opened
    exact ⟨m, by simp, rfl, ended ▸ List.prefix_append _ chunk⟩

theorem completes_of_passes {f : Frame} (passes : f.op = .ping ∨ f.op = .pong) :
    completes f = false := by
  rcases passes with op | op <;> rw [completes, op] <;> exact Bool.and_false _

/-! ### The reference on such frames -/

/-- The message is taken, and not too long. -/
def Acceptable (hooks : Hooks) (config : Config) (m : Message) : Prop :=
  hooks.handles m.kind = true ∧ ∀ l, config.limit m.kind = some l → m.bytes.length ≤ l

section Acceptable

variable {hooks : Hooks} {config : Config} {m : Message} {r : Reference} {before chunk : Bytes}

/-- The first bytes of a message are not too many either. -/
theorem Acceptable.fits (ok : Acceptable hooks config m) {total : Bytes}
    (begun : total <+: m.bytes) : (config.limit m.kind).filter (· < total.length) = none := by
  cases limited : config.limit m.kind with
  | none => rfl
  | some l =>
    have bound := ok.2 l limited
    have short := begun.length_le
    rw [Option.filter_some]
    simp only [decide_eq_true_eq]
    rw [if_neg (by omega)]

theorem begins_of_prefix {total : Bytes} (begun : total <+: m.bytes) (text : m.kind = .text) :
    Begins total := by
  cases m with
  | text s => exact (Utf8.wellFormed_encode s).begins.of_prefix begun
  | binary _ => cases text

theorem join_of_begun {total : Bytes} (ok : Acceptable hooks config m) (begun : total <+: m.bytes) :
    r.join m.kind total (config.limit m.kind) false =
      ({ r with part := some (m.kind, total) }, .keep) := by
  have begins := begins_of_prefix begun
  unfold Reference.join
  rw [ok.fits begun]
  cases m with
  | text s => exact if_pos (begins rfl)
  | binary bs => rfl

theorem join_of_whole (ok : Acceptable hooks config m) :
    r.join m.kind m.bytes (config.limit m.kind) true = ({ r with part := none }, .deliver m) := by
  unfold Reference.join
  rw [ok.fits (List.prefix_refl _)]
  cases m with
  | binary bs => rfl
  | text s =>
    have well : WellFormed (Message.text s).bytes := Utf8.wellFormed_encode s
    have same : textOf (Message.text s).bytes well = s :=
      Utf8.encode_injective (Utf8.encode_textOf well)
    simp only [Message.kind, well, dite_true, same]

end Acceptable

/-- A frame neither ends a message nor is refused. -/
def Ruling.Neutral (ruling : Ruling) : Prop := ruling = .pass ∨ ruling = .keep

/-- What frames carry is delivered message by message, each one by its last frame. -/
theorem rule_of_carries (hooks : Hooks) {config : Config} {part : Option (MessageKind × Bytes)}
    {ms : List Message} {f : Frame} {fs : List Frame} (carried : Carries part ms (f :: fs))
    (ok : ∀ m ∈ ms, Acceptable hooks config m) :
    ∃ part' ruling, Reference.rule ⟨false, part⟩ hooks config f = (⟨false, part'⟩, ruling) ∧
      f.op ≠ .close ∧
      (ruling.Neutral ∧ completes f = false ∧ Carries part' ms fs ∨
        ∃ m rest, ms = m :: rest ∧ ruling = .deliver m ∧ completes f = true ∧
          Carries part' rest fs) := by
  have opens (kind : MessageKind) (hooks : Hooks) (config : Config) (fin : Bool) (chunk : Bytes) :
      Reference.rule ⟨false, none⟩ hooks config ⟨kind.op, fin, chunk⟩ =
        Reference.extend ⟨false, none⟩ hooks config kind [] ⟨kind.op, fin, chunk⟩ := by
    cases kind <;> rfl
  have opening (kind : MessageKind) : kind.op ≠ .close := by cases kind <;> decide
  cases carried with
  | control passes rest =>
    refine ⟨part, .pass, ?_, ?_, .inl ⟨.inl rfl, completes_of_passes passes, rest⟩⟩
    · rcases passes with op | op <;> rw [Reference.rule, op]
    · rcases passes with op | op <;> rw [op] <;> decide
  | whole m rest =>
    have good := ok m (by simp)
    refine ⟨none, .deliver m, ?_, ?_, .inr ⟨m, _, rfl, rfl, ?_, rest⟩⟩
    · rw [opens, Reference.extend, if_pos good.1, List.nil_append]
      exact join_of_whole good
    · exact opening m.kind
    · cases m <;> rfl
  | first kind chunk rest =>
    obtain ⟨m, mem, rfl, begun⟩ := rest.next
    have good := ok m mem
    refine ⟨some (m.kind, chunk), .keep, ?_, ?_, .inl ⟨.inr rfl, rfl, rest⟩⟩
    · rw [opens, Reference.extend, if_pos good.1, List.nil_append]
      exact join_of_begun good begun
    · exact opening m.kind
  | @more kind before _ _ chunk rest =>
    obtain ⟨m, mem, rfl, begun⟩ := rest.next
    have good := ok m mem
    refine ⟨some (m.kind, before ++ chunk), .keep, ?_, nofun, .inl ⟨.inr rfl, rfl, rest⟩⟩
    exact (if_pos good.1).trans (join_of_begun good begun)
  | @last before rest _ m chunk ended onward =>
    have good := ok m (by simp)
    refine ⟨none, .deliver m, ?_, nofun, .inr ⟨m, rest, rfl, rfl, rfl, onward⟩⟩
    refine (if_pos good.1).trans ?_
    dsimp only
    rw [← ended]
    exact join_of_whole good

end WebSocketEngine.Assembly
