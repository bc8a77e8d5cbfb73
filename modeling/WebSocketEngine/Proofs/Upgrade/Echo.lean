import WebSocketEngine.Proofs.Http.Lists
import WebSocketEngine.Proofs.Upgrade.Outcome

/-!
What a client is told about its session.

    agreed upon        left in the response    told
    a subprotocol p    anything                p
    no subprotocol     x                       x
    extensions es      anything                es, joined
    no extensions      x                       x

An agreement is laid over the response that the negotiator leaves; what it lacks is not taken out.
So the client is told just what its session uses if, and only if, the negotiator has left nothing
under the names that the agreement lacks (`told_of_upgraded`).  A creator that writes to neither
header never leaves anything there (`toldBy_of_silent`).
-/

namespace WebSocketEngine.Upgrade

open Http (FieldName)

variable {σ : Type}

/-- A response tells a client just what its session uses. -/
structure Upgraded.ToldBy (u : Upgraded σ) (r : Response) : Prop where
  subprotocol : r.told .webSocketProtocol = u.subprotocol.toList
  extensions : r.told .webSocketExtensions =
    if u.extensions = [] then [] else [Response.joined u.extensions]

/-! ### Agreements -/

/-- A negotiation that comes to a session came to an agreement, which was then accepted. -/
theorem agreed_of_ofNegotiation {request : Request} {p : Pattern} {n : Negotiation σ}
    {u : Upgraded σ}
    (upgraded : (Attempt.ofNegotiation request p n).verdict = .ok (.upgraded u)) :
    ∃ a, n.result = .ok (some a) ∧ u.subprotocol = a.subprotocol ∧ u.extensions = a.extensions ∧
      n.response.accept u.subprotocol u.extensions =
        .ok (Attempt.ofNegotiation request p n).response := by
  unfold Attempt.ofNegotiation at upgraded ⊢
  rcases result : n.result with e | (_ | a)
  · rw [result] at upgraded
    cases upgraded
  · rw [result] at upgraded
    cases upgraded
  · cases accepted : n.response.accept a.subprotocol a.extensions with
    | error e =>
      simp only [result, accepted] at upgraded
      cases upgraded
    | ok r =>
      simp only [result, accepted] at upgraded ⊢
      cases upgraded
      exact ⟨a, rfl, rfl, rfl, accepted⟩

/-- Whoever agreed to a session, and what was left to tell the client. -/
theorem agreed_of_upgraded {routes : Routes (Negotiator σ)} {defaults : Defaults}
    {request : Request} {response : Response} {u : Upgraded σ}
    (upgraded : (routes.upgrade defaults request response).verdict = .ok (.upgraded u)) :
    ∃ p negotiator a, routes.find? request.path = some (p, negotiator) ∧
      let n := negotiator.resolve request response
        ((Config.ofDefaults defaults).apply negotiator.customizer)
      n.result = .ok (some a) ∧ u.subprotocol = a.subprotocol ∧ u.extensions = a.extensions ∧
      n.response.accept u.subprotocol u.extensions =
        .ok (routes.upgrade defaults request response).response := by
  unfold Routes.upgrade at upgraded ⊢
  split at upgraded
  · cases upgraded
  · next asks =>
    rw [if_neg asks]
    cases found : routes.find? request.path with
    | none =>
      rw [found] at upgraded
      cases upgraded
    | some at_ =>
      obtain ⟨p, negotiator⟩ := at_
      rw [found] at upgraded
      obtain ⟨a, agreed⟩ := agreed_of_ofNegotiation upgraded
      exact ⟨p, negotiator, a, rfl, agreed⟩

/-- What a creator agrees to is what its endpoint selects. -/
theorem endpoint_of_agreed {creator : Creator σ} {request : Request} {response : Response}
    {config : Config} {a : Agreement σ}
    (agreed : (Negotiator.negotiate creator request response config).result = .ok (some a)) :
    ∃ c e, request.context = some c ∧
      (Negotiator.enter creator request c response).endpoint = some e ∧ a = .reach e request ∧
      (Negotiator.negotiate creator request response config).response =
        (Negotiator.enter creator request c response).response := by
  unfold Negotiator.negotiate at agreed ⊢
  cases context : request.context with
  | none =>
    rw [context] at agreed
    cases agreed
  | some c =>
    simp only [context, Negotiator.conclude] at agreed ⊢
    cases sent : (Negotiator.enter creator request c response).response.committed with
    | true =>
      simp only [sent] at agreed
      cases agreed
    | false =>
      cases made : (Negotiator.enter creator request c response).endpoint with
      | none =>
        simp only [Response.sendError, Response.whileOpen, sent, made] at agreed
        cases agreed
      | some e =>
        simp only [sent, made] at agreed ⊢
        exact ⟨c, e, rfl, made, (Option.some.inj (Except.ok.inj agreed)).symm, rfl⟩

/-! ### What is laid over -/

/-- An accepted session is told of just as it is if nothing was left where it has nothing. -/
theorem toldBy_iff_of_accept {u : Upgraded σ} {left r : Response}
    (accepted : left.accept u.subprotocol u.extensions = .ok r) :
    u.ToldBy r ↔ (u.subprotocol = none → left.told .webSocketProtocol = []) ∧
      (u.extensions = [] → left.told .webSocketExtensions = []) := by
  obtain ⟨-, -, protocol, extensions⟩ := Response.told_accept accepted
  have first : r.told .webSocketProtocol = u.subprotocol.toList ↔
      (u.subprotocol = none → left.told .webSocketProtocol = []) := by
    rw [protocol]
    cases u.subprotocol <;> simp
  have second : (r.told .webSocketExtensions =
        if u.extensions = [] then [] else [Response.joined u.extensions]) ↔
      (u.extensions = [] → left.told .webSocketExtensions = []) := by
    rw [extensions]
    by_cases none : u.extensions = [] <;> simp [none]
  exact ⟨fun told => ⟨first.mp told.subprotocol, second.mp told.extensions⟩,
    fun ⟨p, e⟩ => ⟨first.mpr p, second.mpr e⟩⟩

/-- Whatever a session uses, its client is told; it is told nothing else if, and only if, whoever
    agreed to the session left nothing under the names of what the session lacks.  A creator's
    session uses the first subprotocol among the client's offers that the endpoint supports, and
    those of the offered extensions whose names it supports, in the order of the offers. -/
theorem told_of_upgraded (routes : Routes (Negotiator σ)) (defaults : Defaults)
    (request : Request) (response : Response) (u : Upgraded σ)
    (upgraded : (routes.upgrade defaults request response).verdict = .ok (.upgraded u)) :
    ∃ p negotiator, routes.find? request.path = some (p, negotiator) ∧
      let a := routes.upgrade defaults request response
      let left := (negotiator.resolve request response
        ((Config.ofDefaults defaults).apply negotiator.customizer)).response
      (∀ s ∈ u.subprotocol, a.response.told .webSocketProtocol = [s]) ∧
      (u.extensions ≠ [] →
        a.response.told .webSocketExtensions = [Response.joined u.extensions]) ∧
      (u.ToldBy a.response ↔ (u.subprotocol = none → left.told .webSocketProtocol = []) ∧
        (u.extensions = [] → left.told .webSocketExtensions = [])) ∧
      ∀ creator customizer, negotiator = .ofCreator creator customizer →
        ∃ c e, request.context = some c ∧
          (Negotiator.enter creator request c response).endpoint = some e ∧
          left = (Negotiator.enter creator request c response).response ∧
          u.subprotocol = request.subprotocols.find? e.subprotocols.contains ∧
          u.extensions = request.extensions.filter fun o =>
            e.extensions.contains (Endpoint.extensionName o) := by
  obtain ⟨p, negotiator, a, found, agreed, subprotocol, extensions, accepted⟩ :=
    agreed_of_upgraded upgraded
  obtain ⟨-, -, protocol, offers⟩ := Response.told_accept accepted
  refine ⟨p, negotiator, found, ?_, ?_, toldBy_iff_of_accept accepted, ?_⟩
  · intro s chosen
    rw [protocol, Option.mem_def.mp chosen]
    rfl
  · intro some_
    rw [offers, if_neg some_]
  · rintro creator customizer rfl
    obtain ⟨c, e, context, made, reached, left⟩ := endpoint_of_agreed agreed
    subst reached
    exact ⟨c, e, context, made, left, subprotocol, extensions⟩

/-- A creator that writes nothing and makes an endpoint for the second subprotocol that the client
    offers, and for its first extension. -/
theorem told_of_upgraded_offered :
    let app : Application Unit := ⟨.none, fun s _ => (s, ⟨[], .succeed⟩), fun _ => false⟩
    let e : Endpoint Unit := ⟨app, (), .nothing, ["chat"], ["deflate"]⟩
    let s : Site Unit := ⟨fun _ _ => ⟨[], some e⟩, .nothing⟩
    let sites : Routes (Site Unit) := ⟨[(⟨"/", .anything⟩, s)]⟩
    let offering := ((Request.create "GET" "/").withStandardHeaders.withHeader .webSocketProtocol
      "soap, chat").withHeader .webSocketExtensions "deflate; level=9, tunnel"
    let a := sites.served.upgrade .standard (offering.withContext ⟨1⟩) .fresh
    ∃ u, a.verdict = .ok (.upgraded u) ∧ u.subprotocol = some "chat" ∧
      u.extensions = ["deflate; level=9"] ∧ a.response.told .webSocketProtocol = ["chat"] ∧
      a.response.told .webSocketExtensions = ["deflate; level=9"] ∧ u.ToldBy a.response := by
  intro app e s sites offering a
  have asks : offering.isUpgrade = true := by
    rw [Request.isUpgrade_withHeader _ _ (by decide), Request.isUpgrade_withHeader _ _ (by decide)]
    exact Request.asks_of_standard "/" ⟨1⟩
  have reaches : Reaches sites (offering.withContext ⟨1⟩) s ⟨1⟩ :=
    ⟨asks, ⟨⟨"/", .anything⟩, rfl⟩, rfl⟩
  have found : sites.served.find? offering.path = some (⟨"/", .anything⟩, s.negotiator) := rfl
  have unsent : (Negotiator.enter s.creator (offering.withContext ⟨1⟩) ⟨1⟩
      .fresh).response.committed = false := rfl
  obtain ⟨upgraded, -⟩ := upgraded_of_reaches .standard reaches unsent rfl
  have subprotocols : offering.subprotocols = ["soap", "chat"] ++ [] := by
    refine Http.holds_iff.mp ?_
    rw [Request.values_withHeader_of_ne _ _ (by decide),
      Request.values_withHeader _ (by rw [String.all_bool_eq]; decide),
      Request.values_withStandardHeaders _ (by decide)]
    exact .text (by decide) (Http.lists_iff.mpr (by decide)) .nil
  have extensions : offering.extensions = ["deflate; level=9", "tunnel"] ++ [] := by
    refine Http.holds_iff.mp ?_
    rw [Request.values_withHeader _ (by rw [String.all_bool_eq]; decide),
      Request.values_withHeader_of_ne _ _ (by decide),
      Request.values_withStandardHeaders _ (by decide)]
    exact .text (by decide) (Http.lists_iff.mpr (by decide)) .nil
  have chosen : e.selectSubprotocol offering.subprotocols = some "chat" := by
    rw [subprotocols]
    decide
  have kept : e.selectExtensions offering.extensions = ["deflate; level=9"] := by
    rw [extensions]
    decide
  obtain ⟨p, negotiator, found', protocol, offers, told, -⟩ :=
    told_of_upgraded sites.served .standard (offering.withContext ⟨1⟩) .fresh _ upgraded
  cases found.symm.trans found'
  refine ⟨_, upgraded, chosen, kept, protocol _ chosen, (offers ?_).trans ?_, told.mpr ⟨?_, ?_⟩⟩
  · exact fun none => List.cons_ne_nil _ _ (kept.symm.trans none)
  · exact congrArg (fun es => [Response.joined es]) kept
  · exact fun none => nomatch chosen.symm.trans none
  · exact fun none => nomatch kept.symm.trans none

/-- A creator that writes a subprotocol and makes an endpoint that supports none: the client is told
    of the subprotocol, which the session does not use. -/
theorem told_of_leftover :
    let app : Application Unit := ⟨.none, fun s _ => (s, ⟨[], .succeed⟩), fun _ => false⟩
    let s : Site Unit :=
      ⟨fun _ _ => ⟨[.subprotocol "chat"], some ⟨app, (), .nothing, [], []⟩⟩, .nothing⟩
    let sites : Routes (Site Unit) := ⟨[(⟨"/", .anything⟩, s)]⟩
    let request := (Request.create "GET" "/").withStandardHeaders.withContext ⟨1⟩
    let a := sites.served.upgrade .standard request .fresh
    ∃ u, a.verdict = .ok (.upgraded u) ∧ u.subprotocol = none ∧
      a.response.told .webSocketProtocol = ["chat"] ∧ ¬ u.ToldBy a.response := by
  intro app s sites request a
  have reaches : Reaches sites request s ⟨1⟩ :=
    ⟨Request.asks_of_standard "/" ⟨1⟩, ⟨⟨"/", .anything⟩, rfl⟩, rfl⟩
  have allowed : "chat".all Http.isValueChar = true := by rw [String.all_bool_eq]; decide
  have written : Response.fresh.write (.subprotocol "chat") =
      (⟨.ok, none, ⟨[(.webSocketProtocol, ⟨"chat", allowed⟩)]⟩, false⟩, .ok ()) := by
    simp only [Response.write, Response.attempt, Response.setSubprotocol, Response.setHeader,
      Response.whileOpen, Response.valueFor, Http.FieldValue.ofText?, allowed, dif_pos]
    rfl
  have left : (Negotiator.enter s.creator request ⟨1⟩ .fresh).response =
      ⟨.ok, none, ⟨[(.webSocketProtocol, ⟨"chat", allowed⟩)]⟩, false⟩ :=
    congrArg Prod.fst written
  have unsent : (Negotiator.enter s.creator request ⟨1⟩ .fresh).response.committed = false := by
    rw [left]
  obtain ⟨upgraded, -, accepted⟩ := upgraded_of_reaches .standard reaches unsent rfl
  rw [left] at accepted
  have unsupported : (s.session .standard request ⟨app, (), .nothing, [], []⟩).subprotocol = none :=
    List.find?_eq_none.mpr fun offer _ => by simp
  have told : a.response.told .webSocketProtocol = ["chat"] := by
    rw [(Response.told_accept accepted).2.2.1, unsupported]
    rfl
  refine ⟨_, upgraded, unsupported, told, ?_⟩
  rintro ⟨subprotocol, -⟩
  rw [told, unsupported] at subprotocol
  cases subprotocol

/-! ### Creators that leave the headers alone -/

/-- A creator that writes nothing under a name leaves it as it is, however often it runs. -/
theorem told_enter {creator : Creator σ} {request : Request} {n : FieldName}
    (silent : ∀ r, ∀ w ∈ (creator request r).writes, n ∉ w.names) (c : Context)
    (response : Response) :
    (Negotiator.enter creator request c response).response.told n = response.told n := by
  obtain ⟨runs⟩ := c
  induction runs with
  | zero => rfl
  | succ runs ih =>
    rw [← ih]
    exact Response.told_writeAll (silent _)

/-- A client is told just what its session uses by every creator that leaves both headers alone. -/
theorem toldBy_of_silent (sites : Routes (Site σ)) (defaults : Defaults) (request : Request)
    {response : Response} (blank : response.headers = .empty)
    (silent : ∀ p s, sites.find? request.path = some (p, s) → ∀ r,
      ∀ w ∈ (s.creator request r).writes,
        .webSocketProtocol ∉ w.names ∧ .webSocketExtensions ∉ w.names)
    {u : Upgraded σ}
    (upgraded : (sites.served.upgrade defaults request response).verdict = .ok (.upgraded u)) :
    u.ToldBy (sites.served.upgrade defaults request response).response := by
  have untold : ∀ n, response.told n = [] := by
    intro n
    rw [Response.told, blank]
    rfl
  cases exit sites defaults request response with
  | @upgraded s c e reaches _ _ verdict accepted =>
    cases upgraded.symm.trans verdict
    obtain ⟨p, found⟩ := reaches.found
    rw [toldBy_iff_of_accept accepted,
      told_enter fun r w mem => (silent p s found r w mem).1,
      told_enter fun r w mem => (silent p s found r w mem).2]
    exact ⟨fun _ => untold _, fun _ => untold _⟩
  | unmatched _ verdict | stranded _ _ _ verdict | committed _ _ verdict
  | refused _ _ _ verdict => cases upgraded.symm.trans verdict

end WebSocketEngine.Upgrade
