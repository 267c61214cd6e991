import ItalyTrip.CookieJar

namespace ItalyTrip

open Calls

instance (route : Route) : Decidable (route = .refresh) :=
  match route with
  | .refresh => isTrue rfl
  | .login _ => isFalse Route.noConfusion
  | .authorized _ => isFalse Route.noConfusion

/-- The server has taken the request for that of a thief. -/
def TakenForThief (x : Request × Response) : Prop :=
  x.1.route = .refresh ∧ x.2 = Users.alreadyUsed

/-- A Refresh that was not refused. -/
def Exchanged (x : Request × Response) : Prop := x.1.route = .refresh ∧ x.2.status ≠ 401

instance (x : Request × Response) : Decidable (Exchanged x) := inferInstanceAs (Decidable (_ ∧ _))

/-- A Refresh with a cookie that an earlier Refresh has exchanged. -/
def Repeats (later earlier : Request × Response) : Prop :=
  later.1.route = .refresh ∧ Exchanged earlier ∧ later.1.cookie = earlier.1.cookie

instance (later earlier : Request × Response) : Decidable (Repeats later earlier) :=
  inferInstanceAs (Decidable (_ ∧ _))

/-- The refresh tokens the browser has been given. -/
def issued (handled : List (Request × Response)) : List String :=
  handled.filterMap fun x => x.2.issues

/-- The cookies that were exchanged. -/
def exchanged (handled : List (Request × Response)) : List String :=
  handled.filterMap fun x => if Exchanged x then x.1.cookie else none

/-- What the rows say of the tokens of the browser: every one has its row, which is revoked exactly if
the token has been exchanged. -/
structure Ledger (app : Application) (tokens : List RefreshToken) (given used : List String) :
    Prop where
  backed : ∀ raw ∈ given, ∃ row ∈ tokens, row.tokenHash = app.hashRefreshToken raw
  distinct : ∀ raw ∈ given, ∀ raw' ∈ given,
    app.hashRefreshToken raw = app.hashRefreshToken raw' → raw = raw'
  spent : ∀ raw ∈ used, raw ≠ "" ∧
    ∃ row ∈ tokens, row.tokenHash = app.hashRefreshToken raw ∧ row.revokedAt ≠ none
  revoked : ∀ row ∈ tokens, row.revokedAt ≠ none → ∀ raw ∈ given,
    row.tokenHash = app.hashRefreshToken raw → raw ∈ used

variable {app : Application}

theorem revokeRefreshToken_mem {db : Database} {now : Instant} {id : UUID} {row : RefreshToken} :
    row ∈ (db.revokeRefreshToken now id).refreshTokens ↔
      ∃ old ∈ db.refreshTokens, row = if old.id = id then { old with revokedAt := some now } else old := by
  simp only [Database.revokeRefreshToken, List.mem_map, eq_comm]

/-- The exchange of a token revokes its row. -/
theorem Ledger.revoke {db : Database} {given used : List String} {now : Instant}
    {row : RefreshToken} {raw : String} (h : Ledger app db.refreshTokens given used)
    (valid : db.Valid) (found : row ∈ db.refreshTokens) (hash : row.tokenHash = app.hashRefreshToken raw)
    (known : raw ∈ given) (present : raw ≠ "") :
    Ledger app (db.revokeRefreshToken now row.id).refreshTokens given (raw :: used) := by
  have later : ∀ old ∈ db.refreshTokens, ∃ new ∈ (db.revokeRefreshToken now row.id).refreshTokens,
      new.tokenHash = old.tokenHash ∧ (old.revokedAt ≠ none → new.revokedAt ≠ none) ∧
        (old.id = row.id → new.revokedAt ≠ none) := by
    intro old hold
    refine ⟨_, revokeRefreshToken_mem.mpr ⟨old, hold, rfl⟩, ?_⟩
    split
    next => exact ⟨rfl, fun _ => Option.some_ne_none _, fun _ => Option.some_ne_none _⟩
    next other => exact ⟨rfl, fun revoked => revoked, fun same => absurd same other⟩
  refine ⟨?_, h.distinct, ?_, ?_⟩
  · intro token htoken
    obtain ⟨old, hold, hhash⟩ := h.backed token htoken
    obtain ⟨new, hnew, same, _⟩ := later old hold
    exact ⟨new, hnew, same.trans hhash⟩
  · intro token htoken
    rcases List.mem_cons.mp htoken with rfl | before
    · obtain ⟨new, hnew, same, _, revoked⟩ := later row found
      exact ⟨present, new, hnew, same.trans hash, revoked rfl⟩
    · obtain ⟨nonempty, old, hold, hhash, hrevoked⟩ := h.spent token before
      obtain ⟨new, hnew, same, stays, _⟩ := later old hold
      exact ⟨nonempty, new, hnew, same.trans hhash, stays hrevoked⟩
  · intro new hnew revoked token htoken hhash
    obtain ⟨old, hold, rfl⟩ := revokeRefreshToken_mem.mp hnew
    by_cases same : old.id = row.id
    · rw [if_pos same] at hhash
      obtain rfl := List.inj_on_of_nodup_map valid.tokens_id hold found same
      have : raw = token := h.distinct raw known token htoken (hash.symm.trans hhash)
      exact this ▸ List.mem_cons_self
    · rw [if_neg same] at revoked hhash
      exact List.mem_cons_of_mem _ (h.revoked old hold revoked token htoken hhash)

/-- A session gives the browser at most a token with a row of its own. -/
theorem Ledger.extend {before after : List RefreshToken} {given used : List String}
    {response : Response} (h : Ledger app before given used)
    (session : Extended app before after response) :
    Ledger app after (response.issues.toList ++ given) used := by
  obtain ⟨new, happend, live⟩ := session.tokens
  subst happend
  have issues : ∀ raw ∈ response.issues.toList, response.issues = some raw :=
    fun raw hraw => Option.mem_toList.mp hraw
  have apart : ∀ raw ∈ given, ∀ raw' ∈ response.issues.toList,
      app.hashRefreshToken raw ≠ app.hashRefreshToken raw' := by
    intro raw hraw raw' hraw' equal
    obtain ⟨row, hrow, hash⟩ := h.backed raw hraw
    exact (session.issued raw' (issues raw' hraw')).1 row hrow (hash.trans equal)
  refine ⟨?_, ?_, ?_, ?_⟩
  · intro raw hraw
    rcases List.mem_append.mp hraw with hraw | hraw
    · exact (session.issued raw (issues raw hraw)).2
    · obtain ⟨row, hrow, hash⟩ := h.backed raw hraw
      exact ⟨row, List.mem_append_left _ hrow, hash⟩
  · intro raw hraw raw' hraw' equal
    rcases List.mem_append.mp hraw with hraw | hraw <;>
      rcases List.mem_append.mp hraw' with hraw' | hraw'
    · exact Option.some.inj ((issues raw hraw).symm.trans (issues raw' hraw'))
    · exact absurd equal.symm (apart raw' hraw' raw hraw)
    · exact absurd equal (apart raw hraw raw' hraw')
    · exact h.distinct raw hraw raw' hraw' equal
  · intro raw hraw
    obtain ⟨nonempty, row, hrow, facts⟩ := h.spent raw hraw
    exact ⟨nonempty, row, List.mem_append_left _ hrow, facts⟩
  · intro row hrow revoked raw hraw hash
    rcases List.mem_append.mp hrow with hrow | hrow
    · rcases List.mem_append.mp hraw with hraw | hraw
      · exact absurd hash ((session.issued raw (issues raw hraw)).1 row hrow)
      · exact h.revoked row hrow revoked raw hraw hash
    · exact absurd (live row hrow) revoked

/-- A message carries a token of the browser, and its answer is one the server has given. -/
structure Message.Known (message : Message) (handled : List (Request × Response)) : Prop where
  route : message.request.route = .refresh ∨ ∃ body, message.request.route = .login body
  cookie : ∀ raw, message.request.cookie = some raw → raw ∈ issued handled
  answer : ∀ response, message.answer = some response → (message.request, response) ∈ handled

/-- The state of a browser that has not been taken for a thief. -/
structure Honest (app : Application) (w : JarWorld) : Prop where
  valid : w.server.db.Valid
  ledger : Ledger app w.server.db.refreshTokens (issued w.handled) (exchanged w.handled)
  jar : ∀ raw, w.jar = some raw → raw ∈ issued w.handled
  messages : ∀ message ∈ w.messages, message.Known w.handled
  carried : ∀ x ∈ w.handled, Exchanged x → ∃ raw, x.1.cookie = some raw
  trusted : ∀ x ∈ w.handled, ¬ TakenForThief x
  once : w.handled.Pairwise fun later earlier => ¬ Repeats later earlier

@[simp] theorem issued_cons {x : Request × Response} {handled : List (Request × Response)} :
    issued (x :: handled) = x.2.issues.toList ++ issued handled := by
  cases h : x.2.issues <;> simp [issued, h]

theorem exchanged_cons {x : Request × Response} {handled : List (Request × Response)} {raw : String}
    (h : Exchanged x) (cookie : x.1.cookie = some raw) :
    exchanged (x :: handled) = raw :: exchanged handled := by
  simp [exchanged, h, cookie]

theorem exchanged_other {x : Request × Response} {handled : List (Request × Response)}
    (h : ¬ Exchanged x) : exchanged (x :: handled) = exchanged handled := by
  simp [exchanged, h]

theorem issued_mono {x : Request × Response} {handled : List (Request × Response)} {raw : String}
    (h : raw ∈ issued handled) : raw ∈ issued (x :: handled) := by
  rw [issued_cons]
  exact List.mem_append_right _ h

theorem exchanged_of_mem {x : Request × Response} {handled : List (Request × Response)} {raw : String}
    (h : x ∈ handled) (hx : Exchanged x) (cookie : x.1.cookie = some raw) : raw ∈ exchanged handled :=
  List.mem_filterMap.mpr ⟨x, h, by rw [if_pos hx, cookie]⟩

theorem mem_exchanged {handled : List (Request × Response)} {raw : String}
    (h : raw ∈ exchanged handled) : ∃ x ∈ handled, Exchanged x ∧ x.1.cookie = some raw := by
  obtain ⟨x, hx, cookie⟩ := List.mem_filterMap.mp h
  split at cookie
  next exchange => exact ⟨x, hx, exchange, cookie⟩
  next => cases cookie

theorem Message.Known.later {message : Message} {x : Request × Response}
    {handled : List (Request × Response)} (h : message.Known handled) : message.Known (x :: handled) :=
  ⟨h.route, fun raw hraw => issued_mono (h.cookie raw hraw),
    fun response hr => List.mem_cons_of_mem _ (h.answer response hr)⟩

/-- The answer of a known message gives the jar a token the server has issued. -/
theorem setCookie_issued {jar : Option String} {request : Request} {response : Response}
    {handled : List (Request × Response)} (old : ∀ raw, jar = some raw → raw ∈ issued handled)
    (answer : (request, response) ∈ handled) :
    ∀ raw, setCookie jar response = some raw → raw ∈ issued handled := by
  intro raw h
  unfold setCookie at h
  split at h
  next => exact old raw h
  next cookie hcookie =>
    split at h
    next => cases h
    next kept =>
      refine List.mem_filterMap.mpr ⟨_, answer, ?_⟩
      simp only [Response.issues, hcookie, if_neg kept]
      exact h

/-- A Refresh that repeats another presents a token that is revoked. -/
theorem Honest.repeats {w : JarWorld} {later earlier : Request × Response} (h : Honest app w)
    (before : earlier ∈ w.handled) (repeated : Repeats later earlier) :
    later.1.cookie.getD "" ≠ "" ∧ ∃ row ∈ w.server.db.refreshTokens,
      row.tokenHash = hashOf app later.1.cookie ∧ row.revokedAt ≠ none := by
  obtain ⟨_, exchange, same⟩ := repeated
  obtain ⟨raw, cookie⟩ := h.carried earlier before exchange
  have := h.ledger.spent raw (exchanged_of_mem before exchange cookie)
  rw [same, hashOf, cookie]
  exact this

/-- A revoked token that the browser presents is one it has exchanged. -/
theorem Honest.presents {w : JarWorld} {message : Message} {row : RefreshToken} {response : Response}
    (h : Honest app w) (hmem : message ∈ w.messages) (route : message.request.route = .refresh)
    (present : message.request.cookie.getD "" ≠ "") (found : row ∈ w.server.db.refreshTokens)
    (hash : row.tokenHash = hashOf app message.request.cookie) (spent : row.revokedAt ≠ none) :
    ∃ earlier ∈ w.handled, Repeats (message.request, response) earlier := by
  cases hcookie : message.request.cookie with
  | none => simp [hcookie] at present
  | some raw =>
    rw [hashOf, hcookie] at hash
    have known := (h.messages message hmem).cookie raw hcookie
    obtain ⟨earlier, before, exchange, cookie⟩ :=
      mem_exchanged (h.ledger.revoked row found spent raw known hash)
    exact ⟨earlier, before, route, exchange, hcookie.trans cookie.symm⟩

/-- What the server has handled decides whether the browser is honest still. -/
theorem Honest.answered {w : JarWorld} {i : Nat} {request : Request} {response : Response}
    {received : Bool} {server : World} (h : Honest app w)
    (hmem : (⟨request, none, received⟩ : Message) ∈ w.messages) (valid : server.db.Valid)
    (ledger : Ledger app server.db.refreshTokens (response.issues.toList ++ issued w.handled)
      (exchanged ((request, response) :: w.handled)))
    (carried : Exchanged (request, response) → ∃ raw, request.cookie = some raw)
    (trusted : ¬ TakenForThief (request, response))
    (once : ∀ earlier ∈ w.handled, ¬ Repeats (request, response) earlier) :
    Honest app { w with server, messages := w.messages.set i ⟨request, some response, received⟩
                        handled := (request, response) :: w.handled } where
  valid := valid
  ledger := by
    rw [issued_cons]
    exact ledger
  jar raw hraw := issued_mono (h.jar raw hraw)
  messages message hm := by
    rcases List.mem_or_eq_of_mem_set hm with old | rfl
    · exact (h.messages message old).later
    · refine ⟨(h.messages _ hmem).route, fun raw hraw => ?_, fun response' same => ?_⟩
      · exact issued_mono ((h.messages _ hmem).cookie raw hraw)
      · rw [← Option.some.inj same]
        exact List.mem_cons_self
  carried x hx := by
    rcases List.mem_cons.mp hx with rfl | old
    · exact carried
    · exact h.carried x old
  trusted x hx := by
    rcases List.mem_cons.mp hx with rfl | old
    · exact trusted
    · exact h.trusted x old
  once := List.pairwise_cons.mpr ⟨once, h.once⟩

/-- The browser has been taken for a thief, and has repeated a Refresh. -/
structure Accused (w : JarWorld) : Prop where
  taken : ∃ x ∈ w.handled, TakenForThief x
  repeated : ¬ w.handled.Pairwise fun later earlier => ¬ Repeats later earlier

theorem handle_honest {w : JarWorld} (h : Honest app w) (i : Nat) (choices : Nat → Choice) :
    Honest app (w.handle app i choices) ∨ Accused (w.handle app i choices) := by
  unfold JarWorld.handle
  split
  next request received hi =>
    have hmem := List.mem_of_getElem? hi
    have known := h.messages _ hmem
    split
    next response server hvisit =>
      have valid : server.db.Valid :=
        visit_keeps (I := fun w => w.db.Valid) (fun _ _ _ _ _ v hp => perform_valid v hp) h.valid hvisit
      cases visit_handled h.valid known.route (fun _ => rfl) hvisit with
      | refused tokens issues refusal =>
        have kept : ¬ Exchanged (request, response) := fun x => x.2 (refusal x.1).1
        refine Or.inl (h.answered hmem valid ?_ (fun x => absurd x kept) ?_ ?_)
        · rw [tokens, issues, exchanged_other kept]
          exact h.ledger
        · exact fun taken => (refusal taken.1).2.1 taken.2
        · intro earlier before repeated
          obtain ⟨present, row, found, hash, spent⟩ := h.repeats before repeated
          rcases (refusal repeated.1).2.2 with missing | live
          · exact present missing
          · exact spent (live row found hash)
      | reused route present row found hash spent answer =>
        have presented : ∃ earlier ∈ w.handled, Repeats (request, response) earlier :=
          h.presents hmem route present found hash spent
        obtain ⟨earlier, before, repeated⟩ := presented
        refine Or.inr ⟨⟨_, List.mem_cons_self, route, answer⟩, fun once => ?_⟩
        exact (List.pairwise_cons.mp once).1 earlier before repeated
      | login route session =>
        refine Or.inl (h.answered hmem valid ?_ (fun x => absurd x.1 route) (fun x => route x.1)
          fun earlier _ repeated => route repeated.1)
        rw [exchanged_other fun x => route x.1]
        exact h.ledger.extend session
      | rotated route present row now found hash live session =>
        have exchange : Exchanged (request, response) := ⟨route, session.answer⟩
        cases hcookie : request.cookie with
        | none => simp [hcookie] at present
        | some raw =>
          refine Or.inl (h.answered hmem valid ?_ (fun _ => ⟨raw, hcookie⟩) ?_ ?_)
          · rw [exchanged_cons exchange hcookie]
            simp only [hcookie, Option.getD_some] at hash present
            exact (h.ledger.revoke h.valid found hash (known.cookie raw hcookie) present).extend session
          · intro taken
            exact exchange.2 (congrArg Response.status taken.2)
          · intro earlier before repeated
            obtain ⟨_, spentRow, found', hash', spent⟩ := h.repeats before repeated
            rw [h.valid.token_eq found' found (hash'.trans hash.symm)] at spent
            exact spent live
    next => exact Or.inl h
  next => exact Or.inl h

/-- Not taken for a thief so far, or accused. -/
def Judged (app : Application) (w : JarWorld) : Prop := Honest app w ∨ Accused w

theorem Judged.browser {w : JarWorld} (h : Judged app w) (browser : Browser) :
    Judged app { w with browser } :=
  h.imp (fun h => ⟨h.valid, h.ledger, h.jar, h.messages, h.carried, h.trusted, h.once⟩)
    fun h => ⟨h.taken, h.repeated⟩

theorem Judged.send {w : JarWorld} (h : Judged app w) {route : Route}
    (hroute : route = .refresh ∨ ∃ body, route = .login body) : Judged app (w.send route) := by
  refine h.imp (fun h => ⟨h.valid, h.ledger, h.jar, fun message hm => ?_, h.carried, h.trusted, h.once⟩)
    fun h => ⟨h.taken, h.repeated⟩
  rcases List.mem_append.mp hm with hm | hm
  · exact h.messages message hm
  · rw [List.mem_singleton.mp hm]
    exact ⟨hroute, h.jar, fun _ none => by cases none⟩

theorem Judged.receive {w w' : JarWorld} {i : Nat} {request : Request} {response : Response}
    (h : Judged app w) (hreceive : w.receive i = some (request, response, w')) : Judged app w' := by
  unfold JarWorld.receive at hreceive
  split at hreceive
  next hi =>
    cases hreceive
    have hmem := List.mem_of_getElem? hi
    refine h.imp (fun h => ?_) fun h => ⟨h.taken, h.repeated⟩
    have known := h.messages _ hmem
    refine ⟨h.valid, h.ledger, setCookie_issued h.jar (known.answer response rfl), fun message hm => ?_,
      h.carried, h.trusted, h.once⟩
    rcases List.mem_or_eq_of_mem_set hm with old | rfl
    · exact h.messages message old
    · exact ⟨known.route, known.cookie, known.answer⟩
  next => cases hreceive

theorem Judged.onBrowser {w w' : JarWorld} {o : ClientChoice} {c : ClientCall} {r : ClientReply c}
    (h : Judged app w) (hp : w.onBrowser o c = some (r, w')) : Judged app w' := by
  unfold JarWorld.onBrowser at hp
  split at hp
  next =>
    cases hp
    exact h.browser _
  next => cases hp

theorem Judged.perform {w w' : JarWorld} {o : JarChoice} {c : ClientCall} {r : ClientReply c}
    (h : Judged app w) (hp : w.perform o c = some (r, w')) : Judged app w' := by
  unfold JarWorld.perform at hp
  split at hp
  next => exact (h.send (Or.inl rfl)).onBrowser hp
  next =>
    split at hp
    next => exact h.onBrowser hp
    next =>
      split at hp
      next hreceive => exact (h.receive hreceive).onBrowser hp
      next => cases hp
  next => exact h.onBrowser hp

theorem Accused.handle {w : JarWorld} (h : Accused w) (i : Nat) (choices : Nat → Choice) :
    Accused (w.handle app i choices) := by
  unfold JarWorld.handle
  split
  next =>
    split
    next =>
      obtain ⟨x, hx, taken⟩ := h.taken
      refine ⟨⟨x, List.mem_cons_of_mem _ hx, taken⟩, fun once => h.repeated ?_⟩
      exact (List.pairwise_cons.mp once).2
    next => exact h
  next => exact h

theorem Judged.env {w : JarWorld} (h : Judged app w) (e : JarEvent) : Judged app (w.env app e) := by
  cases e with
  | browser e => exact h.browser _
  | evict =>
    exact h.imp (fun h => ⟨h.valid, h.ledger, fun _ none => (by cases none), h.messages, h.carried,
      h.trusted, h.once⟩) fun h => ⟨h.taken, h.repeated⟩
  | login body => exact h.send (Or.inr ⟨body, rfl⟩)
  | handle i choices =>
    rcases h with h | h
    · exact handle_honest h i choices
    · exact Or.inr (h.handle i choices)
  | loggedIn i =>
    simp only [JarWorld.env, JarWorld.loggedIn]
    split
    next hreceive =>
      split
      next => exact (h.receive hreceive).browser _
      next => exact h.receive hreceive
    next => exact h
  | wait ticks =>
    exact h.imp (fun h => ⟨h.valid, h.ledger, h.jar, h.messages, h.carried, h.trusted, h.once⟩)
      fun h => ⟨h.taken, h.repeated⟩

theorem Judged.settled {w : JarWorld} (h : Judged app w) :
    (∀ x ∈ w.handled, ¬ TakenForThief x) ↔
      w.handled.Pairwise fun later earlier => ¬ Repeats later earlier := by
  rcases h with h | h
  · exact iff_of_true h.trusted h.once
  · obtain ⟨x, hx, taken⟩ := h.taken
    exact iff_of_false (fun trusted => trusted x hx taken) h.repeated

/-- A browser that nobody shares its cookies with is taken for a thief exactly if a Refresh comes with a
cookie that an earlier one has had exchanged. -/
theorem honest_browser {localeLE : String → String → Bool} {w : World} (valid : w.db.Valid)
    (browser : Browser) (actions : List JarAction) :
    let s : JarPool := Pool.exec (jarMachine app localeLE) ⟨⟨browser, none, [], w, []⟩, []⟩ actions
    (∀ x ∈ s.world.handled, ¬ TakenForThief x) ↔
      s.world.handled.Pairwise fun later earlier => ¬ Repeats later earlier := by
  intro s
  have judged : Judged app s.world := by
    refine Pool.exec_world (I := Judged app) (fun _ _ _ _ _ h hp => h.perform hp)
      (fun e _ h => h.env e) (Or.inl ?_) actions
    refine ⟨valid, ⟨?_, ?_, ?_, ?_⟩, ?_, ?_, ?_, ?_, List.Pairwise.nil⟩
    all_goals simp [issued, exchanged]
  exact judged.settled

section Sample

private def sampleJar : JarPool := ⟨⟨sampleBrowser "old", none, [], sampleWorld, []⟩, []⟩

private def sampleHandle (i : Nat) (id : UUID) (text : String) : JarAction :=
  .env (.handle i fun _ => { sampleChoice 0 id 0 with text := text })

/-- The user logs in. -/
private def sampleLoggedIn : List JarAction :=
  [.env (.login (.ok ⟨"trip@example.com", "pasta"⟩)), sampleHandle 0 2 "r", .env (.loggedIn 0)]

private def sampleExpired : HttpResponse :=
  ⟨401, "Unauthorized", some ⟨some "token expired", some "token_expired", none⟩⟩

private def sampleDelivery (delivery : Option Nat) : JarChoice :=
  ⟨sampleNet (.ok sampleExpired), delivery, "OK"⟩

/-- Thread `i` finds that its token has expired, and thread `i + 1` sends the Refresh. -/
private def sampleTab (tab i p : Nat) : List JarAction :=
  .arrive (.get tab "/api/v1/events/current") :: List.replicate 4 (.act i (sampleDelivery none)) ++
    [.arrive (.refresh tab p), .act (i + 1) (sampleDelivery none)]

/-- The token expires in two tabs at once. -/
private def sampleTabs : List JarAction :=
  sampleLoggedIn ++ sampleTab 0 0 0 ++ sampleTab 1 2 1 ++ [sampleHandle 1 3 "s", sampleHandle 2 4 "t"]

theorem thief_mistaken :
    let s := sampleJar.exec (jarMachine sampleApp fun x y => decide (x ≤ y)) sampleTabs
    ∃ x ∈ s.world.handled, TakenForThief x :=
  ⟨_, List.mem_cons_self, rfl, rfl⟩

/-- One tab after the other. -/
private def sampleTurns : List JarAction :=
  sampleLoggedIn ++ sampleTab 0 0 0 ++ [sampleHandle 1 3 "s", .act 1 (sampleDelivery (some 1))] ++
    sampleTab 1 2 1 ++ [sampleHandle 2 4 "t"]

theorem honest_browser_sample :
    let s := sampleJar.exec (jarMachine sampleApp fun x y => decide (x ≤ y)) sampleTurns
    s.world.handled.length = 3 ∧ ∀ x ∈ s.world.handled, ¬ TakenForThief x := by
  refine ⟨by decide +kernel, ?_⟩
  exact (honest_browser sampleWorld_valid _ _).mpr (by decide +kernel)

end Sample

end ItalyTrip
