import WebSocketEngine.Application.Basic
import WebSocketEngine.Config.Shared
import Mathlib.Data.List.Induction
import Mathlib.Data.List.Infix

/-!
What a handle reads after all that is done with handles.

    create ──▶ configuration ◀── write
                     ▲
          handle, clone, clone of a clone

A handle leads to its configuration for good.  So it reads what it has read before, and on top of
that whatever was written there since, in order and through any handle (`read?_performAll`): of each
field, the value that was written last (`foldl_apply`).

An upgrade makes a configuration and two handles to it, the second one for the assembler
(`performAll_upgrade`); so it is without effect on what others read.
-/

namespace WebSocketEngine.Config

/-! ### The value that was written last -/

/-- The configuration after some changes: of each field, the value that was written last. -/
def after (c : Config) (xs : List Change) : Config where
  idleMillis := (xs.filterMap (·.idle)).getLast?.elim c.idleMillis fun d => min d.millis maxMillis
  maxText := (xs.filterMap (·.maxText)).getLast?.getD c.maxText
  maxBinary := (xs.filterMap (·.maxBinary)).getLast?.getD c.maxBinary
  demanding := (xs.filterMap (·.demanding)).getLast?.getD c.demanding

theorem getLast?_filterMap_concat {α β : Type} (f : α → Option β) (xs : List α) (x : α) :
    ((xs ++ [x]).filterMap f).getLast? = (f x).or (xs.filterMap f).getLast? := by
  rw [List.filterMap_append]
  cases named : f x with
  | none => rw [List.filterMap_cons_none named, List.filterMap_nil, List.append_nil, Option.none_or]
  | some y =>
    rw [List.filterMap_cons_some named, List.filterMap_nil, List.getLast?_concat, Option.some_or]

theorem apply_eq (c : Config) (x : Change) :
    c.apply x = ⟨x.idle.elim c.idleMillis fun d => min d.millis maxMillis,
      x.maxText.getD c.maxText, x.maxBinary.getD c.maxBinary, x.demanding.getD c.demanding⟩ := by
  obtain ⟨idle, maxText, maxBinary, demanding⟩ := x
  cases idle <;> cases maxText <;> cases maxBinary <;> cases demanding <;> rfl

theorem after_concat (c : Config) (xs : List Change) (x : Change) :
    c.after (xs ++ [x]) = (c.after xs).apply x := by
  rw [apply_eq]
  simp only [after, getLast?_filterMap_concat]
  obtain ⟨idle, maxText, maxBinary, demanding⟩ := x
  cases idle <;> cases maxText <;> cases maxBinary <;> cases demanding <;> rfl

/-- Changes leave of each field the value that was written last. -/
theorem foldl_apply (c : Config) (xs : List Change) : xs.foldl apply c = c.after xs := by
  induction xs using List.reverseRecOn with
  | nil => rfl
  | append_singleton xs x ih =>
    rw [List.foldl_append, List.foldl_cons, List.foldl_nil, ih, after_concat]

theorem after_append (c : Config) (xs ys : List Change) :
    c.after (xs ++ ys) = (c.after xs).after ys := by
  rw [← foldl_apply, ← foldl_apply, ← foldl_apply, List.foldl_append]

theorem after_singleton (c : Config) (x : Change) : c.after [x] = c.apply x :=
  (foldl_apply c [x]).symm

/-- Whatever is written field by field is a change. -/
theorem setters_eq_apply (c : Config) :
    (∀ d, c.setIdleTimeout d = c.apply { Change.nothing with idle := some d }) ∧
    (∀ n, c.setMaxText n = c.apply { Change.nothing with maxText := some n }) ∧
    (∀ n, c.setMaxBinary n = c.apply { Change.nothing with maxBinary := some n }) ∧
    (∀ b, c.setDemanding b = c.apply { Change.nothing with demanding := some b }) ∧
    ∀ d : Defaults,
      c.applyDefaults d = c.apply ⟨some d.idleTimeout, some d.maxText, some d.maxBinary, none⟩ :=
  ⟨fun _ => rfl, fun _ => rfl, fun _ => rfl, fun _ => rfl, fun _ => rfl⟩

/-! ### Layers -/

/-- Each value is the declared one, else the customizer's, else the default; and an application that
    asks for frames itself overrides whatever the others say about that. -/
structure Layered (d : Defaults) (customizer declared : Change) (hooks : Hooks) (c : Config) :
    Prop where
  idle : c.idleMillis =
    (declared.idle.or customizer.idle).elim d.idleMillis fun t => min t.millis maxMillis
  maxText : c.maxText = (declared.maxText.or customizer.maxText).getD d.maxText
  maxBinary : c.maxBinary = (declared.maxBinary.or customizer.maxBinary).getD d.maxBinary
  demanding : c.demanding =
    (hooks.demanding || (declared.demanding.or customizer.demanding).getD false)

theorem layered_prepare (d : Defaults) (customizer declared : Change) (hooks : Hooks) :
    Layered d customizer declared hooks
      (hooks.prepare (((ofDefaults d).apply customizer).apply declared)) := by
  rw [apply_eq, apply_eq]
  obtain ⟨idle, maxText, maxBinary, demanding⟩ := declared
  unfold Hooks.prepare
  constructor
  · cases idle <;> split <;> rfl
  · cases maxText <;> split <;> rfl
  · cases maxBinary <;> split <;> rfl
  · split
    · next asks =>
      rw [asks]
      rfl
    · next idle =>
      rw [Bool.eq_false_iff.mpr idle]
      cases demanding <;> rfl

namespace Shared

/-! ### Accesses -/

/-- What can be done with handles. -/
inductive Access
  /-- A new configuration, and the first handle to it. -/
  | create (c : Config)
  | clone (h : Nat)
  /-- Writes some fields through a handle. -/
  | write (h : Nat) (x : Change)

def perform (s : Shared) : Access → Shared
  | .create c => s.create c
  | .clone h => s.clone h
  | .write h x => s.modify h (·.apply x)

def performAll (s : Shared) (ds : List Access) : Shared := ds.foldl perform s

/-- What an access writes to the configuration that `h` leads to. -/
def Access.changes (s : Shared) (h : Nat) : Access → List Change
  | .create _ | .clone _ => []
  | .write k x => if s.shares h k then [x] else []

/-- What accesses write to the configuration that `h` leads to, through any handle. -/
def written (s : Shared) (h : Nat) : List Access → List Change
  | [] => []
  | d :: ds => d.changes s h ++ (s.perform d).written h ds

variable {s : Shared} {h k n : Nat}

theorem performAll_append (s : Shared) (ds es : List Access) :
    s.performAll (ds ++ es) = (s.performAll ds).performAll es := List.foldl_append

theorem written_append (s : Shared) (h : Nat) (ds es : List Access) :
    s.written h (ds ++ es) = s.written h ds ++ (s.performAll ds).written h es := by
  induction ds generalizing s with
  | nil => rfl
  | cons d ds ih =>
    rw [List.cons_append, written, ih, written, List.append_assoc]
    rfl

/-! ### Where handles lead -/

/-- No handle leads nowhere. -/
def Sound (s : Shared) : Prop := ∀ n ∈ s.handles, n < s.configs.length

theorem sound_perform (sound : s.Sound) (d : Access) : (s.perform d).Sound := by
  cases d with
  | create c =>
    intro n mem
    have grown : (s.configs ++ [c]).length = s.configs.length + 1 := List.length_append
    show n < (s.configs ++ [c]).length
    rcases List.mem_append.mp mem with old | new
    · exact grown ▸ Nat.lt_succ_of_lt (sound n old)
    · rw [List.mem_singleton.mp new, grown]
      exact Nat.lt_succ_self _
  | clone h =>
    unfold perform clone
    dsimp only
    split
    · exact sound
    · next n leads =>
      intro m mem
      rcases List.mem_append.mp mem with old | new
      · exact sound m old
      · rw [List.mem_singleton.mp new]
        exact sound n (List.mem_of_getElem? leads)
  | write h x =>
    unfold perform modify
    dsimp only
    split
    · exact sound
    · intro m mem
      rw [List.length_modify]
      exact sound m mem

theorem sound_empty : empty.Sound := fun _ mem => (List.not_mem_nil mem).elim

/-- Whatever was done, no handle leads nowhere. -/
theorem Sound.performAll (sound : s.Sound) (ds : List Access) : (s.performAll ds).Sound := by
  induction ds generalizing s with
  | nil => exact sound
  | cons d ds ih => exact ih (sound_perform sound d)

theorem handles_perform (s : Shared) (d : Access) : s.handles <+: (s.perform d).handles := by
  cases d with
  | create c => exact List.prefix_append _ _
  | clone h =>
    unfold perform clone
    dsimp only
    split
    · exact List.prefix_rfl
    · exact List.prefix_append _ _
  | write h x =>
    unfold perform modify
    dsimp only
    split <;> exact List.prefix_rfl

theorem handles_performAll (s : Shared) (ds : List Access) :
    s.handles <+: (s.performAll ds).handles := by
  induction ds generalizing s with
  | nil => exact List.prefix_rfl
  | cons d ds ih => exact (handles_perform s d).trans (ih _)

/-- A handle leads to its configuration for good. -/
theorem leads_performAll (leads : s.handles[h]? = some n) (ds : List Access) :
    (s.performAll ds).handles[h]? = some n := by
  obtain ⟨more, same⟩ := handles_performAll s ds
  obtain ⟨known, -⟩ := List.getElem?_eq_some_iff.mp leads
  rw [← same, List.getElem?_append_left known, leads]

/-- A clone leads where its original does. -/
theorem leads_clone (leads : s.handles[h]? = some n) :
    (s.perform (.clone h)).handles[s.handles.length]? = some n := by
  simp only [perform, clone, leads]
  exact List.getElem?_concat_length

/-! ### What handles read -/

theorem read?_of_leads (leads : s.handles[h]? = some n) : s.read? h = s.configs[n]? := by
  rw [read?, leads]
  rfl

theorem read?_of_shares (shares : s.shares h k = true) : s.read? k = s.read? h := by
  rw [read?, read?, eq_of_beq shares]

/-- An access leaves a configuration as it was, but for what it writes there. -/
theorem read?_perform (sound : s.Sound) (leads : s.handles[h]? = some n) (d : Access) :
    (s.perform d).read? h = (s.read? h).map (·.after (d.changes s h)) := by
  have later : (s.perform d).handles[h]? = some n := leads_performAll leads [d]
  rw [read?_of_leads later, read?_of_leads leads]
  have untouched (same : (s.perform d).configs[n]? = s.configs[n]?) :
      (s.perform d).configs[n]? = s.configs[n]?.map (·.after []) := by
    rw [same]
    exact Option.map_id'.symm
  cases d with
  | create c =>
    exact untouched (List.getElem?_append_left (sound n (List.mem_of_getElem? leads)))
  | clone k =>
    refine untouched ?_
    unfold perform clone
    dsimp only
    split <;> rfl
  | write k x =>
    cases other : s.handles[k]? with
    | none =>
      have apart : s.shares h k = false := by
        rw [shares, leads, other]
        rfl
      rw [Access.changes, apart, if_neg Bool.false_ne_true]
      refine untouched ?_
      simp only [perform, modify, other]
    | some m =>
      have written : (s.perform (.write k x)).configs[n]? =
          if m = n then s.configs[n]?.map (·.apply x) else s.configs[n]? := by
        simp only [perform, modify, other, List.getElem?_modify]
        split <;> simp
      rw [Access.changes, shares, leads, other]
      by_cases same : m = n
      · rw [written, if_pos same, if_pos (by simp [same])]
        simp only [after_singleton]
      · rw [if_neg (by simpa using Ne.symm same)]
        exact untouched (written.trans (if_neg same))

/-- A handle reads what it has read before, and on top of that what was written there since, through
    any handle. -/
theorem read?_performAll (sound : s.Sound) (leads : s.handles[h]? = some n) (ds : List Access) :
    (s.performAll ds).read? h = (s.read? h).map (·.after (s.written h ds)) := by
  induction ds generalizing s with
  | nil => exact Option.map_id'.symm
  | cons d ds ih =>
    have onward := ih (sound_perform sound d) (leads_performAll leads [d])
    have first := read?_perform sound leads d
    show ((s.perform d).performAll ds).read? h = _
    rw [onward, first, Option.map_map]
    exact congrArg (Option.map · _) (funext fun c => (after_append c _ _).symm)

/-! ### Upgrades -/

/-- What an upgrade does with handles, `own` being the number of its first one: it creates a
    configuration from the defaults, lets the customizer and the declaration write to it, and gives
    the assembler a handle of its own, through which the demand flag is set. -/
def upgrade (own : Nat) (d : Defaults) (customizer declared : Change) (hooks : Hooks) :
    List Access :=
  [.create (.ofDefaults d), .write own customizer, .write own declared, .clone own] ++
    if hooks.demanding then [.write (own + 1) { Change.nothing with demanding := some true }] else []

theorem modify_last {cs : List Config} {hs : List Nat} (leads : hs[h]? = some cs.length)
    (c : Config) (f : Config → Config) :
    modify ⟨cs ++ [c], hs⟩ h f = ⟨cs ++ [f c], hs⟩ := by
  have last : (cs ++ [c]).modify cs.length f = cs ++ [f c] :=
    List.modifyTailIdx_add (List.modifyHead f) 0 cs [c]
  simp only [modify, leads, last]

/-- An upgrade leaves all that there was, and one more configuration with two handles to it. -/
theorem performAll_upgrade (s : Shared) (d : Defaults) (customizer declared : Change)
    (hooks : Hooks) :
    s.performAll (upgrade s.handles.length d customizer declared hooks) =
      ⟨s.configs ++ [hooks.prepare (((ofDefaults d).apply customizer).apply declared)],
        s.handles ++ [s.configs.length, s.configs.length]⟩ := by
  have own : (s.handles ++ [s.configs.length])[s.handles.length]? = some s.configs.length :=
    List.getElem?_concat_length
  have assembler : (s.handles ++ [s.configs.length] ++ [s.configs.length])[s.handles.length + 1]? =
      some s.configs.length := by
    have length : (s.handles ++ [s.configs.length]).length = s.handles.length + 1 :=
      List.length_append
    rw [← length]
    exact List.getElem?_concat_length
  have begun : s.performAll [.create (.ofDefaults d), .write s.handles.length customizer,
      .write s.handles.length declared, .clone s.handles.length] =
      ⟨s.configs ++ [((ofDefaults d).apply customizer).apply declared],
        s.handles ++ [s.configs.length] ++ [s.configs.length]⟩ := by
    simp only [performAll, List.foldl_cons, List.foldl_nil, perform, create]
    rw [modify_last own, modify_last own]
    simp only [clone, own]
  rw [upgrade, performAll_append, begun, Hooks.prepare]
  split
  · exact (modify_last assembler _ _).trans (by rw [List.append_assoc]; rfl)
  · rw [List.append_assoc]
    rfl

section Upgraded

variable (s : Shared) (d : Defaults) (customizer declared : Change) (hooks : Hooks)

/-- Both handles of an upgrade lead to its configuration. -/
theorem leads_upgrade :
    let t := s.performAll (upgrade s.handles.length d customizer declared hooks)
    t.handles[s.handles.length]? = some s.configs.length ∧
      t.handles[s.handles.length + 1]? = some s.configs.length := by
  intro t
  have handles : t.handles = s.handles ++ [s.configs.length, s.configs.length] :=
    congrArg Shared.handles (performAll_upgrade s d customizer declared hooks)
  rw [handles]
  constructor
  · rw [List.getElem?_append_right (Nat.le_refl _), Nat.sub_self]
    rfl
  · rw [List.getElem?_append_right (Nat.le_add_right _ 1), Nat.add_sub_cancel_left]
    rfl

theorem read?_upgrade :
    (s.performAll (upgrade s.handles.length d customizer declared hooks)).read? s.handles.length =
      some (hooks.prepare (((ofDefaults d).apply customizer).apply declared)) := by
  rw [read?_of_leads (leads_upgrade s d customizer declared hooks).1, performAll_upgrade]
  exact List.getElem?_concat_length

/-- An upgrade does not touch what others read. -/
theorem read?_upgrade_of_lt (sound : s.Sound) (known : h < s.handles.length) :
    (s.performAll (upgrade s.handles.length d customizer declared hooks)).read? h = s.read? h := by
  have leads : s.handles[h]? = some s.handles[h] := List.getElem?_eq_getElem known
  rw [read?_of_leads leads, read?_of_leads (leads_performAll leads _), performAll_upgrade]
  exact List.getElem?_append_left (sound _ (List.getElem_mem known))

/-- The session's own handle, the assembler's, and one that is cloned from its own later, share a
    configuration for good. -/
theorem shares_upgrade (early more : List Access) :
    let own := s.handles.length
    let joined := (s.performAll (upgrade own d customizer declared hooks)).performAll early
    ∀ h ∈ [own, own + 1, joined.handles.length],
      (joined.performAll (.clone own :: more)).shares own h = true := by
  intro own joined h mem
  obtain ⟨first, second⟩ := leads_upgrade s d customizer declared hooks
  have joins : joined.handles[own]? = some s.configs.length := leads_performAll first early
  have leads (k : Nat) (begins : joined.handles[k]? = some s.configs.length) :
      (joined.performAll (.clone own :: more)).handles[k]? = some s.configs.length :=
    leads_performAll begins _
  have reaches : (joined.performAll (.clone own :: more)).handles[h]? = some s.configs.length := by
    rcases List.mem_cons.mp mem with rfl | later
    · exact leads _ joins
    · rcases List.mem_cons.mp later with rfl | cloned
      · exact leads _ (leads_performAll second early)
      · rw [List.mem_singleton.mp cloned]
        exact leads_performAll (leads_clone joins) more
  rw [shares, leads own joins, reaches]
  exact beq_self_eq_true _

/-- Whoever shares the configuration of an upgrade reads what it began with, and on top of that what
    was written there since. -/
theorem read?_of_shares_upgrade (sound : s.Sound) (later : List Access) :
    let store := s.performAll (upgrade s.handles.length d customizer declared hooks)
    (store.performAll later).shares s.handles.length h = true →
      (store.performAll later).read? h =
        some ((hooks.prepare (((ofDefaults d).apply customizer).apply declared)).after
          (store.written s.handles.length later)) := by
  intro store shares
  have upgraded : store.Sound := sound.performAll _
  rw [read?_of_shares shares,
    read?_performAll upgraded (leads_upgrade s d customizer declared hooks).1, read?_upgrade]
  rfl

end Upgraded

end Shared

end WebSocketEngine.Config
