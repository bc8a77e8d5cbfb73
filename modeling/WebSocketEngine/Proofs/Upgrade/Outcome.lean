import WebSocketEngine.Proofs.Upgrade.Writing
import WebSocketEngine.Upgrade.Attempt

/-!
How an attempt to upgrade ends, where every pattern leads to a creator.

    no upgrade is asked for, or the path leads nowhere ──▶ left to others
    there is nothing to run the creator in             ──▶ fails
    the response is committed after the runs           ──▶ refused, with that response
    the last run made no endpoint                      ──▶ refused, with the reason of a refusal
    the last run made an endpoint                      ──▶ upgraded

The last exit cannot fail: what an endpoint selects are tokens of the client's own headers, so they
can stand in a header again (`exists_accept_reach`), and the response is open.
-/

namespace WebSocketEngine.Upgrade

variable {σ : Type}

/-! ### Requests that ask -/

namespace Request

theorem withHeader_of_allowed {r : Request} {n : Http.FieldName} {value : String}
    (allowed : value.all Http.isValueChar = true) :
    r.withHeader n value = { r with headers := r.headers.append n ⟨value, allowed⟩ } := by
  simp only [withHeader, Http.FieldValue.ofText?, allowed, dif_pos]

/-- A GET with the standard headers asks for an upgrade. -/
theorem asks_of_standard (path : String) (c : Context) :
    ((create "GET" path).withStandardHeaders.withContext c).isUpgrade = true := by
  rw [withStandardHeaders,
    withHeader_of_allowed (by rw [String.all_bool_eq]; decide),
    withHeader_of_allowed (by rw [String.all_bool_eq]; decide),
    withHeader_of_allowed (by rw [String.all_bool_eq]; decide),
    withHeader_of_allowed (by rw [String.all_bool_eq]; decide)]
  generalize request : withContext _ c = r
  have method : r.method = "GET" := by
    subst request
    rfl
  have upgrade : r.plain? .upgrade = some "websocket" := by
    subst request
    show (Http.FieldValue.text? ⟨"websocket", _⟩).map _ = _
    rw [Http.FieldValue.text?_of_readable (by decide)]
    exact congrArg some (String.toList_inj.mp (String.toList_ofList.trans (by decide)))
  have tokens : r.headers.tokens .connection = ["keep-alive", "Upgrade"] := by
    subst request
    have pieces : ((Text.pieces ',' "keep-alive, Upgrade".toList).map Text.trimBlank).filter
        (· ≠ []) = ["keep-alive".toList, "Upgrade".toList] := by decide
    show (((List.filterMap Http.FieldValue.text? [⟨"keep-alive, Upgrade", _⟩]).flatMap fun t =>
      (Text.pieces ',' t.toList).map Text.trimBlank).filter _).map String.ofList = _
    rw [List.filterMap_cons_some (Http.FieldValue.text?_of_readable (by decide)),
      List.filterMap_nil, List.flatMap_singleton, pieces, List.map_cons, List.map_singleton,
      String.ofList_toList, String.ofList_toList]
  have version : r.plain? .webSocketVersion = some "13" := by
    subst request
    show (Http.FieldValue.text? ⟨"13", _⟩).map _ = _
    rw [Http.FieldValue.text?_of_readable (by decide)]
    exact congrArg some (String.toList_inj.mp (String.toList_ofList.trans (by decide)))
  have key : r.headers.values .webSocketKey ≠ [] := by
    subst request
    exact List.cons_ne_nil _ _
  rw [isUpgrade, method, upgrade, tokens, version, decide_eq_true key]
  decide

theorem values_withHeader (r : Request) {n : Http.FieldName} {value : String}
    (allowed : value.all Http.isValueChar = true) :
    (r.withHeader n value).headers.values n = r.headers.values n ++ [⟨value, allowed⟩] := by
  rw [withHeader_of_allowed allowed]
  exact Http.Headers.values_append

theorem values_withHeader_of_ne (r : Request) {m n : Http.FieldName} (value : String)
    (ne : m ≠ n) : (r.withHeader n value).headers.values m = r.headers.values m := by
  unfold withHeader
  split
  · exact Http.Headers.values_append_of_ne ne
  · rfl

theorem values_withStandardHeaders (r : Request) {n : Http.FieldName}
    (other : n ∉ [.upgrade, .connection, .webSocketVersion, .webSocketKey]) :
    r.withStandardHeaders.headers.values n = r.headers.values n := by
  obtain ⟨upgrade, connection, version, key⟩ :
      n ≠ .upgrade ∧ n ≠ .connection ∧ n ≠ .webSocketVersion ∧ n ≠ .webSocketKey := by
    simpa [not_or] using other
  rw [withStandardHeaders, values_withHeader_of_ne _ _ key, values_withHeader_of_ne _ _ version,
    values_withHeader_of_ne _ _ connection, values_withHeader_of_ne _ _ upgrade]

/-- Other headers make no difference to what a request asks for. -/
theorem isUpgrade_withHeader (r : Request) {n : Http.FieldName} (value : String)
    (other : n ∉ [.upgrade, .connection, .webSocketVersion, .webSocketKey]) :
    (r.withHeader n value).isUpgrade = r.isUpgrade := by
  obtain ⟨upgrade, connection, version, key⟩ :
      .upgrade ≠ n ∧ .connection ≠ n ∧ .webSocketVersion ≠ n ∧ .webSocketKey ≠ n := by
    simpa [not_or, eq_comm] using other
  have method : (r.withHeader n value).method = r.method := by
    unfold withHeader
    split <;> rfl
  have plain {m : Http.FieldName} (ne : m ≠ n) : (r.withHeader n value).plain? m = r.plain? m := by
    rw [plain?, plain?, Http.Headers.text?, Http.Headers.text?, values_withHeader_of_ne r value ne]
  have tokens : (r.withHeader n value).headers.tokens .connection =
      r.headers.tokens .connection := by
    rw [Http.Headers.tokens, Http.Headers.tokens, values_withHeader_of_ne r value connection]
  rw [isUpgrade, isUpgrade, method, plain upgrade, plain version, tokens,
    values_withHeader_of_ne r value key]

end Request

/-! ### Routes to creators -/

namespace Routes

theorem better_map (f : ν → μ) (best : Option (Pattern × ν)) (e : Pattern × ν) :
    better (best.map (Prod.map id f)) (e.map id f) = (better best e).map (Prod.map id f) := by
  cases best with
  | none => rfl
  | some b =>
    simp only [better, Option.map_some, Prod.map_fst, id]
    split <;> rfl

theorem foldl_better_map (f : ν → μ) (es : List (Pattern × ν)) (best : Option (Pattern × ν)) :
    (es.map (Prod.map id f)).foldl better (best.map (Prod.map id f)) =
      (es.foldl better best).map (Prod.map id f) := by
  induction es generalizing best with
  | nil => rfl
  | cons e es ih => rw [List.map_cons, List.foldl_cons, better_map, ih, List.foldl_cons]

/-- Where a path leads depends on the patterns only. -/
theorem find?_map (f : ν → μ) (r : Routes ν) (path : String) :
    (r.map f).find? path = (r.find? path).map (Prod.map id f) := by
  have covering : (r.map f).entries.filter (·.1.covers path) =
      (r.entries.filter (·.1.covers path)).map (Prod.map id f) := List.filter_map ..
  rw [find?, covering]
  exact foldl_better_map f _ none

end Routes

/-- What can be served at a pattern: a creator, and the change to the defaults that is made
    first. -/
structure Site (σ : Type) where
  creator : Creator σ
  customizer : Config.Change

def Site.negotiator (s : Site σ) : Negotiator σ := .ofCreator s.creator s.customizer

/-- The routes, with the negotiators of their sites. -/
def Routes.served (sites : Routes (Site σ)) : Routes (Negotiator σ) := sites.map Site.negotiator

/-! ### What is agreed upon -/

/-- What an endpoint agrees upon with a client can be told to the client. -/
theorem exists_accept_reach {r : Response} (unsent : r.committed = false) (e : Endpoint σ)
    (request : Request) :
    ∃ r', r.accept (e.selectSubprotocol request.subprotocols)
      (e.selectExtensions request.extensions) = .ok r' := by
  -- Whatever is chosen was offered, and what was offered came out of a header.
  refine Response.exists_accept unsent ?_ ?_
  · intro s chosen
    exact Http.Headers.readable_of_mem_tokens (List.mem_of_find?_eq_some chosen)
  · intro o mem
    exact Http.Headers.readable_of_mem_tokens (List.mem_filter.mp mem).1

/-- The session that a client and an endpoint of a site agree upon. -/
def Site.session (s : Site σ) (defaults : Defaults) (request : Request) (e : Endpoint σ) :
    Upgraded σ where
  path := request.path
  subprotocol := e.selectSubprotocol request.subprotocols
  extensions := e.selectExtensions request.extensions
  config := e.application.hooks.prepare
    (((Config.ofDefaults defaults).apply s.customizer).apply e.declared)
  application := e.application
  memory := e.memory

/-! ### Exits -/

/-- The request asks for an upgrade, and there are a site for it and a context to run in. -/
structure Reaches (sites : Routes (Site σ)) (request : Request) (s : Site σ) (c : Context) :
    Prop where
  asks : request.isUpgrade = true
  found : ∃ p, sites.find? request.path = some (p, s)
  context : request.context = some c

/-- The response with a refusal. -/
def Response.refuse (r : Response) : Response :=
  { r with status := .serviceUnavailable, reason := some Negotiator.refusal, committed := true }

/-- The exits of an attempt. -/
inductive Exit (sites : Routes (Site σ)) (defaults : Defaults) (request : Request)
    (response : Response) (a : Attempt σ) : Prop
  | unmatched (why : request.isUpgrade = false ∨ sites.find? request.path = none)
      (verdict : a.verdict = .ok .notMatched) (same : a.response = response)
      (entered : a.entered = 0) (runs : a.runs = [])
  | stranded (asks : request.isUpgrade = true) (found : sites.find? request.path ≠ none)
      (nowhere : request.context = none) (verdict : a.verdict = .error .missingContext)
      (same : a.response = response) (entered : a.entered = 0) (runs : a.runs = [])
  | committed {s : Site σ} {c : Context} (reaches : Reaches sites request s c)
      (sent : (Negotiator.enter s.creator request c response).response.committed = true)
      (verdict : a.verdict = .ok .refused)
      (left : a.response = (Negotiator.enter s.creator request c response).response)
      (entered : a.entered = 1)
  | refused {s : Site σ} {c : Context} (reaches : Reaches sites request s c)
      (unsent : (Negotiator.enter s.creator request c response).response.committed = false)
      (nothing : (Negotiator.enter s.creator request c response).endpoint = none)
      (verdict : a.verdict = .ok .refused)
      (left : a.response = (Negotiator.enter s.creator request c response).response.refuse)
      (entered : a.entered = 1)
  | upgraded {s : Site σ} {c : Context} {e : Endpoint σ} (reaches : Reaches sites request s c)
      (unsent : (Negotiator.enter s.creator request c response).response.committed = false)
      (made : (Negotiator.enter s.creator request c response).endpoint = some e)
      (verdict : a.verdict = .ok (.upgraded (s.session defaults request e)))
      (accepted : (Negotiator.enter s.creator request c response).response.accept
        (s.session defaults request e).subprotocol (s.session defaults request e).extensions =
          .ok a.response)
      (entered : a.entered = 1)

section

variable {sites : Routes (Site σ)} {defaults : Defaults} {request : Request} {response : Response}
variable {s : Site σ} {c : Context}

theorem upgrade_of_find? {p : Pattern} (asks : request.isUpgrade = true)
    (found : sites.find? request.path = some (p, s)) :
    sites.served.upgrade defaults request response =
      .ofNegotiation request p (Negotiator.negotiate s.creator request response
        ((Config.ofDefaults defaults).apply s.customizer)) := by
  simp only [Routes.upgrade, Routes.served, Routes.find?_map, asks, found, Bool.not_true,
    Bool.false_eq_true, if_false, Option.map_some]
  rfl

theorem upgrade_of_reaches (defaults : Defaults) (response : Response)
    (reaches : Reaches sites request s c) :
    ∃ p, sites.served.upgrade defaults request response =
      .ofNegotiation request p (Negotiator.conclude request
        ((Config.ofDefaults defaults).apply s.customizer)
        (Negotiator.enter s.creator request c response)) := by
  obtain ⟨asks, ⟨p, found⟩, context⟩ := reaches
  refine ⟨p, ?_⟩
  rw [upgrade_of_find? asks found, Negotiator.negotiate, context]

/-- An endpoint comes to its session. -/
theorem upgraded_of_reaches (defaults : Defaults) {e : Endpoint σ}
    (reaches : Reaches sites request s c)
    (unsent : (Negotiator.enter s.creator request c response).response.committed = false)
    (made : (Negotiator.enter s.creator request c response).endpoint = some e) :
    let a := sites.served.upgrade defaults request response
    let u := s.session defaults request e
    a.verdict = .ok (.upgraded u) ∧ a.entered = 1 ∧
      (Negotiator.enter s.creator request c response).response.accept u.subprotocol u.extensions =
        .ok a.response := by
  obtain ⟨r, accepted⟩ := exists_accept_reach unsent e request
  obtain ⟨p, runs⟩ := upgrade_of_reaches defaults response reaches
  simp only [Negotiator.conclude, unsent, made, Attempt.ofNegotiation, Agreement.reach, accepted,
    Bool.false_eq_true, if_false] at runs
  intro a u
  have ends : a = _ := runs
  rw [ends]
  exact ⟨rfl, rfl, accepted⟩

/-- An attempt that reaches a site goes as the runs of its creator say. -/
theorem exit_of_reaches (reaches : Reaches sites request s c) :
    Exit sites defaults request response (sites.served.upgrade defaults request response) := by
  cases unsent : (Negotiator.enter s.creator request c response).response.committed with
  | true =>
    obtain ⟨p, runs⟩ := upgrade_of_reaches defaults response reaches
    rw [Negotiator.conclude, unsent, if_pos rfl] at runs
    rw [runs]
    exact .committed reaches unsent rfl rfl rfl
  | false =>
    cases made : (Negotiator.enter s.creator request c response).endpoint with
    | none =>
      obtain ⟨p, runs⟩ := upgrade_of_reaches defaults response reaches
      simp only [Negotiator.conclude, unsent, made, Response.sendError, Response.whileOpen,
        Bool.false_eq_true, if_false] at runs
      rw [runs]
      exact .refused reaches unsent made rfl rfl rfl
    | some e =>
      obtain ⟨verdict, entered, accepted⟩ := upgraded_of_reaches defaults reaches unsent made
      exact .upgraded reaches unsent made verdict accepted entered

/-- Every attempt takes one of the exits. -/
theorem exit (sites : Routes (Site σ)) (defaults : Defaults) (request : Request)
    (response : Response) :
    Exit sites defaults request response (sites.served.upgrade defaults request response) := by
  cases asks : request.isUpgrade with
  | false =>
    have plain : sites.served.upgrade defaults request response =
        .pass response (Attempt.plainLine request.path) := by
      simp [Routes.upgrade, asks]
    rw [plain]
    exact .unmatched (.inl asks) rfl rfl rfl rfl
  | true =>
    cases found : sites.find? request.path with
    | none =>
      have unmapped : sites.served.upgrade defaults request response =
          .pass response (Attempt.unmappedLine request.path) := by
        simp [Routes.upgrade, Routes.served, Routes.find?_map, asks, found]
      rw [unmapped]
      exact .unmatched (.inr found) rfl rfl rfl rfl
    | some at_ =>
      obtain ⟨p, s⟩ := at_
      cases context : request.context with
      | none =>
        rw [upgrade_of_find? asks found, Negotiator.negotiate, context]
        exact .stranded asks (by rw [found]; nofun) context rfl rfl rfl rfl
      | some c => exact exit_of_reaches ⟨asks, ⟨p, found⟩, context⟩

/-! ### What the exits keep to -/

namespace Exit

variable {a : Attempt σ}

/-- The response, as it is after a creator that runs at most once. -/
def left (s : Site σ) (request : Request) (c : Context) (response : Response) : Response :=
  if c.runs = 0 then response else (response.writeAll (s.creator request response).writes).1

theorem enter_response (once : c.runs ≤ 1) :
    (Negotiator.enter s.creator request c response).response = left s request c response := by
  obtain ⟨runs⟩ := c
  rcases Nat.le_one_iff_eq_zero_or_eq_one.mp once with rfl | rfl <;> rfl

/-- A creator that finds the response committed cannot change it. -/
theorem left_of_committed (committed : response.committed = true) :
    left s request c response = response := by
  rw [left, Response.writeAll_of_committed committed, ite_self]

theorem of_notMatched (exit : Exit sites defaults request response a)
    (notMatched : a.verdict = .ok .notMatched) : a.runs = [] ∧ a.response = response := by
  cases exit with
  | unmatched _ _ same _ runs => exact ⟨runs, same⟩
  | stranded _ _ _ verdict | committed _ _ verdict | refused _ _ _ verdict
  | upgraded _ _ _ verdict => cases notMatched.symm.trans verdict

/-- Nothing but a missing context can go wrong. -/
theorem of_error (exit : Exit sites defaults request response a) {f : Fault}
    (failed : a.verdict = .error f) :
    f = .missingContext ∧ a.runs = [] ∧ a.response = response := by
  cases exit with
  | stranded _ _ _ verdict same _ runs =>
    cases failed.symm.trans verdict
    exact ⟨rfl, runs, same⟩
  | unmatched _ verdict | committed _ _ verdict | refused _ _ _ verdict
  | upgraded _ _ _ verdict => cases failed.symm.trans verdict

/-- A refusal is what the creator left if that is committed, and says so otherwise. -/
theorem of_refused (exit : Exit sites defaults request response a)
    (once : ∀ c, request.context = some c → c.runs ≤ 1)
    (refusal : a.verdict = .ok .refused) :
    ∃ s c, Reaches sites request s c ∧ a.response.committed = true ∧
      a.response = if (left s request c response).committed then left s request c response
        else (left s request c response).refuse := by
  cases exit with
  | committed reaches sent _ same =>
    rw [enter_response (once _ reaches.context)] at sent same
    refine ⟨_, _, reaches, ?_, ?_⟩
    · rw [same, sent]
    · rw [sent, if_pos rfl, same]
  | refused reaches unsent _ _ same =>
    rw [enter_response (once _ reaches.context)] at unsent same
    refine ⟨_, _, reaches, ?_, ?_⟩
    · rw [same]; rfl
    · rw [unsent, if_neg (by decide), same]
  | unmatched _ verdict | stranded _ _ _ verdict | upgraded _ _ _ verdict =>
    cases refusal.symm.trans verdict

theorem of_upgraded (exit : Exit sites defaults request response a) {u : Upgraded σ}
    (upgrade : a.verdict = .ok (.upgraded u)) :
    a.response.committed = true ∧ a.response.status = .switchingProtocols := by
  cases exit with
  | upgraded _ _ _ _ accepted =>
    obtain ⟨committed, status, -⟩ := Response.told_accept accepted
    exact ⟨committed, status⟩
  | unmatched _ verdict | stranded _ _ _ verdict | committed _ _ verdict
  | refused _ _ _ verdict => cases upgrade.symm.trans verdict

theorem entered_eq (exit : Exit sites defaults request response a) :
    a.entered = if request.isUpgrade ∧ (sites.find? request.path).isSome ∧
      request.context.isSome then 1 else 0 := by
  cases exit with
  | unmatched why _ _ entered =>
    rw [entered]
    rcases why with plain | unmapped
    · simp [plain]
    · simp [unmapped]
  | stranded _ _ nowhere _ _ entered => simp [entered, nowhere]
  | committed reaches _ _ _ entered | refused reaches _ _ _ _ entered
  | upgraded reaches _ _ _ _ entered =>
    obtain ⟨asks, ⟨p, found⟩, context⟩ := reaches
    simp [entered, asks, found, context]

end Exit

/-- Others have their turn only if the request is left to them and the response is open. -/
theorem handle_next (routes : Routes (Negotiator σ))
    (next : Request → Response → List Response.Write) :
    (routes.handle defaults request response next).2.isSome = true ↔
      (routes.upgrade defaults request response).verdict = .ok .notMatched ∧
        (routes.upgrade defaults request response).response.committed = false := by
  unfold Routes.handle
  generalize routes.upgrade defaults request response = a
  rcases verdict : a.verdict with e | (_ | _ | u) <;>
    cases sent : a.response.committed <;> simp [verdict, sent]

end

/-- An attempt that is left to others, and one that fails, leave the response alone and run no
    creator; all that can fail is that there is nothing to run it in.  A refusal is what the creator
    left if that is committed, and says so otherwise.  An upgrade is committed to.  The context is
    entered just once if there are a site and a context for an upgrade, else never; and others come
    to their turn just where the request is left to them and the response is open. -/
theorem upgrade_outcomes (sites : Routes (Site σ)) (defaults : Defaults) (request : Request)
    (response : Response) (once : ∀ c, request.context = some c → c.runs ≤ 1) :
    let a := sites.served.upgrade defaults request response
    (a.verdict = .ok .notMatched → a.runs = [] ∧ a.response = response) ∧
    (∀ f, a.verdict = .error f → f = .missingContext ∧ a.runs = [] ∧ a.response = response) ∧
    (a.verdict = .ok .refused → ∃ s c, Reaches sites request s c ∧ a.response.committed = true ∧
      let left := if c.runs = 0 then response
        else (response.writeAll (s.creator request response).writes).1
      (response.committed = true → left = response) ∧
      a.response = if left.committed then left else { left with
        status := .serviceUnavailable, reason := some Negotiator.refusal, committed := true }) ∧
    (∀ u, a.verdict = .ok (.upgraded u) →
      a.response.committed = true ∧ a.response.status = .switchingProtocols) ∧
    (a.entered = if request.isUpgrade ∧ (sites.find? request.path).isSome ∧
      request.context.isSome then 1 else 0) ∧
    ∀ next, (sites.served.handle defaults request response next).2.isSome = true ↔
      a.verdict = .ok .notMatched ∧ response.committed = false := by
  intro a
  have exit := exit sites defaults request response
  refine ⟨exit.of_notMatched, fun f => exit.of_error, ?_, fun u => exit.of_upgraded,
    exit.entered_eq, ?_⟩
  · intro refusal
    obtain ⟨s, c, reaches, committed, same⟩ := exit.of_refused once refusal
    exact ⟨s, c, reaches, committed, Exit.left_of_committed, same⟩
  · intro next
    rw [handle_next]
    refine and_congr_right fun notMatched => ?_
    rw [(exit.of_notMatched notMatched).2]

/-- A creator that sets a status and makes no endpoint. -/
theorem upgrade_outcomes_of_refusing :
    let s : Site Unit := ⟨fun _ _ => ⟨[.status .serviceUnavailable], none⟩, .nothing⟩
    let sites : Routes (Site Unit) := ⟨[(⟨"/", .anything⟩, s)]⟩
    let request := (Request.create "GET" "/").withStandardHeaders.withContext ⟨1⟩
    let a := sites.served.upgrade .standard request .fresh
    (∀ c, request.context = some c → c.runs ≤ 1) ∧ a.verdict = .ok .refused ∧
      a.response.committed = true ∧ a.entered = 1 := by
  intro s sites request a
  have asks : request.isUpgrade = true := Request.asks_of_standard "/" ⟨1⟩
  have once : ∀ c, request.context = some c → c.runs ≤ 1 := by
    rintro c ⟨⟩
    exact le_refl 1
  have found : sites.find? request.path = some (⟨"/", .anything⟩, s) := rfl
  have verdict : a.verdict = .ok .refused := by
    show (sites.served.upgrade .standard request .fresh).verdict = _
    rw [upgrade_of_find? asks found]
    rfl
  obtain ⟨-, -, refused, -, entered, -⟩ := upgrade_outcomes sites .standard request .fresh once
  obtain ⟨-, -, -, committed, -⟩ := refused verdict
  exact ⟨once, verdict, committed, entered.trans (if_pos ⟨asks, rfl, rfl⟩)⟩

end WebSocketEngine.Upgrade
