import WebSocketEngine.Proofs.Host.Sending

/-!
What an application does to a host while it is called.

An act changes the configuration, grants demand, sends, or asks for the end; a call is the acts of
the application's reaction, one after another.  None of them touches the application's memory, the
handler, the tokens that are kept or the driver's callback (`core_foldl_perform`).
-/

namespace WebSocketEngine

/-! ### What acts come to -/

/-- The configuration after an act. -/
def Act.configure (c : Config) : Act → Config
  | .change x => c.apply x
  | .setIdleTimeout d => c.setIdleTimeout d
  | _ => c

/-- The demand that an act grants. -/
def Act.grant : Act → UInt64
  | .demand n => n
  | _ => 0

/-- The frames that an act offers to the writer. -/
def Act.frames : Act → List Frame
  | .send f _ _ => [f]
  | .sendMessage kind chunks _ _ => Assembly.fragments kind chunks
  | _ => []

/-- A unit of demand is taken only where there is one. -/
theorem Session.eq_of_take? {s t : Session} (taken : s.take? = some t) :
    s.demand ≠ 0 ∧ t = { s with demand := s.demand - 1 } := by
  unfold take? at taken
  split at taken
  · cases taken
  · next some => exact ⟨some, (Option.some.inj taken).symm⟩

theorem Session.demand_of_take? {s t : Session} (taken : s.take? = some t) :
    t.demand.toNat + 1 = s.demand.toNat := by
  obtain ⟨some, rfl⟩ := eq_of_take? taken
  have positive : (1 : UInt64) ≤ s.demand := by
    rw [UInt64.le_iff_toNat_le]
    exact Nat.one_le_iff_ne_zero.mpr fun zero => some (UInt64.toNat_inj.mp zero)
  show (s.demand - 1).toNat + 1 = s.demand.toNat
  rw [UInt64.toNat_sub_of_le _ _ positive]
  exact Nat.sub_add_cancel (UInt64.le_iff_toNat_le.mp positive)

namespace Host

variable {σ : Type}

theorem outside_ticketFor (caller : Option Nat) : (ticketFor caller).sink.Outside := by
  cases caller <;> trivial

/-- The host with everything blank that an act may change. -/
def core (h : Host σ) : Host σ :=
  { h.still with
    session := { h.still.session with config := .standard, demand := 0, abortReason := none }
    parked := []
    ready := []
    shutdown := false }

theorem Sends.core {P : Frame → Prop} {h k : Host σ} (s : Sends P h k) : k.core = h.core := by
  rw [Host.core, s.still]
  rfl

theorem sends_perform_send (h : Host σ) (f : Frame) (batch : Bool) (caller : Option Nat) :
    Sends (· = f) h (h.perform (.send f batch caller)) :=
  sends_send (P := (· = f)) h rfl (outside_ticketFor caller) batch

theorem sends_perform_sendMessage (h : Host σ) (kind : MessageKind) (chunks : List Bytes)
    (batch : Bool) (caller : Option Nat) :
    Sends (· ∈ Assembly.fragments kind chunks) h
      (h.perform (.sendMessage kind chunks batch caller)) :=
  sends_sendMessage h (fun _ hf => hf) (outside_ticketFor caller) batch

theorem abort_cases (h : Host σ) (e : Failure) :
    h.abort e = h ∨ h.session.abortReason = none ∧ h.abort e =
      { h.log (abortedLine h.session.id e) with
        session := { h.session with abortReason := some e } }.wake .driver := by
  unfold abort
  split
  · exact .inl rfl
  · next none => exact .inr ⟨none, rfl⟩

theorem core_perform (h : Host σ) (a : Act) : (h.perform a).core = h.core := by
  cases a with
  | change x => rfl
  | setIdleTimeout d => rfl
  | demand n => rfl
  | send f batch caller => exact (sends_perform_send h f batch caller).core
  | sendMessage kind chunks batch caller =>
    exact (sends_perform_sendMessage h kind chunks batch caller).core
  | abort e =>
    rcases abort_cases h e with eq | ⟨_, eq⟩
    · rw [perform, eq]
    · rw [perform, eq]
      rfl
  | shutdown => rfl

theorem config_perform (h : Host σ) (a : Act) :
    (h.perform a).session.config = a.configure h.session.config := by
  cases a with
  | change x => rfl
  | setIdleTimeout d => rfl
  | demand n => rfl
  | send f batch caller => exact (sends_perform_send h f batch caller).config
  | sendMessage kind chunks batch caller =>
    exact (sends_perform_sendMessage h kind chunks batch caller).config
  | abort e =>
    rcases abort_cases h e with eq | ⟨_, eq⟩
    · rw [perform, eq]
      rfl
    · rw [perform, eq]
      rfl
  | shutdown => rfl

/-- A reading that passes over what acts leave in the record finds nothing new. -/
theorem record_perform (h : Host σ) (a : Act) {α : Type} {read : Note → Option α}
    (settled : ∀ n o, read (.settled n o) = none)
    (accepted : ∀ f batch, read (.accepted f batch) = none)
    (logged : ∀ l, read (.logged l) = none) : (h.perform a).record read = h.record read := by
  cases a with
  | change x => rfl
  | setIdleTimeout d => rfl
  | demand n => rfl
  | send f batch caller => exact (sends_perform_send h f batch caller).record settled accepted
  | sendMessage kind chunks batch caller =>
    exact (sends_perform_sendMessage h kind chunks batch caller).record settled accepted
  | abort e =>
    rcases abort_cases h e with eq | ⟨_, eq⟩ <;> rw [perform, eq]
    exact (record_note read h _).trans (by rw [logged]; exact List.append_nil _)
  | shutdown => rfl

/-! ### Reactions -/

theorem core_foldl_perform (h : Host σ) (acts : List Act) :
    (acts.foldl perform h).core = h.core := by
  induction acts generalizing h with
  | nil => rfl
  | cons a acts ih => exact (ih _).trans (core_perform h a)

theorem config_foldl_perform (h : Host σ) (acts : List Act) :
    (acts.foldl perform h).session.config = acts.foldl Act.configure h.session.config := by
  induction acts generalizing h with
  | nil => rfl
  | cons a acts ih => rw [List.foldl_cons, ih, config_perform]; rfl

theorem record_foldl_perform (h : Host σ) (acts : List Act) {α : Type} {read : Note → Option α}
    (settled : ∀ n o, read (.settled n o) = none)
    (accepted : ∀ f batch, read (.accepted f batch) = none)
    (logged : ∀ l, read (.logged l) = none) :
    (acts.foldl perform h).record read = h.record read := by
  induction acts generalizing h with
  | nil => rfl
  | cons a acts ih => exact (ih _).trans (record_perform h a settled accepted logged)

variable (app : Application σ)

/-- A call changes what acts may change, and the application's memory. -/
theorem core_call (h : Host σ) (c : Call) :
    (h.call app c).1.core = { h.core with memory := (app.react h.memory c).1 } := by
  unfold call
  rw [core_foldl_perform]
  rfl

theorem calls_call (h : Host σ) (c : Call) : (h.call app c).1.calls = h.calls ++ [c] := by
  unfold call
  exact (record_foldl_perform _ _ (fun _ _ => rfl) (fun _ _ => rfl) fun _ => rfl).trans
    (record_note _ h _)

end Host

end WebSocketEngine
