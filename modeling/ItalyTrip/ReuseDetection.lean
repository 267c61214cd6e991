import ItalyTrip.RefreshExchange

namespace ItalyTrip

open Calls

def Route.isLogin : Route → Bool
  | .login _ => true
  | _ => false

/-- A Refresh that has found a token of the user unrevoked and is not answered yet. -/
def Rotating (app : Application) (userID : UUID) (u : Thread Call Reply Request Response) : Prop :=
  u.pending.isSome = true ∧ u.task.route = .refresh ∧
    ∃ stored, FoundLive app u.task u.past stored ∧ stored.userID = userID

/-- The hash is that of a token of the user in the database. -/
def Held (userID : UUID) (w : World) (hash : String) : Prop :=
  ∃ row ∈ w.db.refreshTokens, row.tokenHash = hash ∧ row.userID = userID

instance (userID : UUID) (w : World) (hash : String) : Decidable (Held userID w hash) :=
  inferInstanceAs (Decidable (∃ row ∈ w.db.refreshTokens, _ ∧ _))

/-- Between `s` and `s'` thread `i`, a Refresh with a token of the user, answers that it was used. -/
def DetectsReuse (app : Application) (userID : UUID) (s s' : ServerPool) (i : Nat) : Prop :=
  (∃ u ∈ s.threads[i]?, u.result = none) ∧
    ∃ u ∈ s'.threads[i]?, u.result = some Users.alreadyUsed ∧ ∃ rawToken ∈ u.task.cookie,
      u.task.presents rawToken = true ∧ Held userID s.world (app.hashRefreshToken rawToken)

instance (app : Application) (userID : UUID) (s s' : ServerPool) (i : Nat) :
    Decidable (DetectsReuse app userID s s' i) :=
  inferInstanceAs (Decidable (_ ∧ _))

/-- The hashes of the tokens that descend by rotation from a login of the user: one before the run
from `w`, or one completed in `s`. The rotations are those in `s'`. -/
inductive Descends (app : Application) (userID : UUID) (w : World) (s s' : ServerPool) : String → Prop
  | held {row} : row ∈ w.db.refreshTokens → row.userID = userID →
      Descends app userID w s s' row.tokenHash
  | login {u row} : u ∈ s.threads → u.task.route.isLogin = true → succeeded u = true →
      row ∈ createdBy u.past → row.userID = userID → Descends app userID w s s' row.tokenHash
  | rotation {u rawToken row} : Descends app userID w s s' (app.hashRefreshToken rawToken) →
      u ∈ s'.threads → u.task.presents rawToken = true → row ∈ createdBy u.past →
      Descends app userID w s s' row.tokenHash

variable {app : Application} {userID : UUID}

abbrev GoodTokens (app : Application) (s : ServerPool) : Prop :=
  Pool.Good (server app) (fun w => w.db.Valid) (KnowsTokens app) s

theorem revokeForUser_revokes {db : Database} {now : Instant} {row : RefreshToken}
    (h : row ∈ (db.revokeRefreshTokensForUser now userID).refreshTokens) (hu : row.userID = userID) :
    row.revokedAt ≠ none := by
  obtain ⟨old, _, rfl⟩ := List.mem_map.mp h
  by_cases hold : old.userID = userID ∧ old.revokedAt = none
  · rw [if_pos hold]
    exact Option.some_ne_none _
  · rw [if_neg hold] at hu ⊢
    exact fun live => hold ⟨hu, live⟩

/-- The answer comes with the revocation of every token of the user. -/
theorem detects_revokes {s : ServerPool} {i : Nat} {choice : Choice} (good : GoodTokens app s)
    (faultless : choice.fault = .none)
    (h : DetectsReuse app userID s (s.step (server app) (.act i choice)) i) :
    (∀ row ∈ (s.step (server app) (.act i choice)).world.db.refreshTokens, row.userID = userID →
      row.revokedAt ≠ none) ∧
    ∃ u, u.pending = none ∧ (s.step (server app) (.act i choice)).threads = s.threads.set i u := by
  obtain ⟨⟨u, hu, unanswered⟩, u', hu', answered, rawToken, hc, presents, row, hrow, hash, huser⟩ := h
  rcases Pool.step_act (m := server app) s i choice with same | ⟨t, past, c, next, r, x⟩
  · rw [same, hu] at hu'
    rw [Option.some.inj hu', answered] at unanswered
    cases unanswered
  · rw [x.threads, List.getElem?_set_self (List.getElem?_eq_some_iff.mp x.thread).1] at hu'
    obtain rfl := Option.some.inj hu'
    have rest := Option.some.inj (Thread.rest_of_result answered)
    have leads : (serve app t).Leads (⟨c, r⟩ :: past) (next r) :=
      (good.leads _ x.mem _ rfl).next r
    rw [rest] at leads
    obtain ⟨route, cookie⟩ := presents_iff.mp presents
    obtain ⟨stored, r', hpast⟩ := ((serve_tokens t).at_done leads route).2 rfl
    refine ⟨?_, _, ?_, x.threads⟩
    · cases hpast
      have knows := good.thread _ x.mem
      obtain ⟨shash, now, hn, hnow⟩ := knows.found _ stored (List.mem_singleton_self _)
      rw [show t.cookie = some rawToken from cookie, Option.getD_some] at shash
      obtain rfl := good.world.token_eq hn hrow (hnow.hash.trans (shash.trans hash.symm))
      have hp : perform choice s.world (.query (.revokeRefreshTokensForUser stored.userID)) =
          some (r', (s.step (server app) (.act i choice)).world) := x.performed
      simp only [perform, faultless, Database.exec, Option.some.injEq, Prod.mk.injEq] at hp
      rw [← hp.2, ← huser, hnow.user]
      exact fun row => revokeForUser_revokes
    · rw [rest]
      rfl

/-- What the answer in `s₁` leaves for good: the user's tokens stay revoked, and a refresh not as it
was then has found none of them unrevoked. -/
structure Ended (app : Application) (userID : UUID) (s₁ s : ServerPool) : Prop where
  good : GoodTokens app s
  spent : ∀ row ∈ s₁.world.db.refreshTokens, row.userID = userID → Spent row s.world
  threads : ∀ (j : Nat) u, s.threads[j]? = some u → s₁.threads[j]? = some u ∨
    (u.task.route = .refresh → ∀ stored, FoundLive app u.task u.past stored →
      ¬ Held userID s₁.world stored.tokenHash)

/-- A refresh still under way has found no token of the user unrevoked. -/
theorem Ended.found {s₁ s : ServerPool} (h : Ended app userID s₁ s) (good : GoodTokens app s₁)
    (settled : ∀ u ∈ s₁.threads, ¬ Rotating app userID u) {j : Nat}
    {u : Thread Call Reply Request Response} (hu : s.threads[j]? = some u)
    (pending : u.pending.isSome = true) (route : u.task.route = .refresh) {stored : RefreshToken}
    (live : FoundLive app u.task u.past stored) : ¬ Held userID s₁.world stored.tokenHash := by
  rcases h.threads j u hu with old | late
  · rintro ⟨row, hrow, hash, huser⟩
    have hmem := List.mem_of_getElem? old
    obtain ⟨now, hn, hc⟩ := ((good.thread u hmem).found _ stored live.1).2
    obtain rfl := good.world.token_eq hn hrow (hc.hash.trans hash.symm)
    exact settled u hmem ⟨pending, route, stored, live, hc.user.symm.trans huser⟩
  · exact late route stored live

theorem Ended.step {s₁ s : ServerPool} (h : Ended app userID s₁ s) (good : GoodTokens app s₁)
    (settled : ∀ u ∈ s₁.threads, ¬ Rotating app userID u) (a : ServerAction) :
    Ended app userID s₁ (s.step (server app) a) := by
  have good' := (session_rules app).step h.good (Pool.meets_true s a)
  cases a with
  | arrive req =>
    rcases Pool.step_arrive (m := server app) s req with same | same
    · rwa [same]
    · rw [same] at good' ⊢
      refine ⟨good', h.spent, fun j u hu => ?_⟩
      rcases getElem?_concat_cases hu with rfl | hu
      · exact Or.inr fun _ _ live => absurd live.1 List.not_mem_nil
      · exact h.threads j u hu
  | act i choice =>
    rcases Pool.step_act (m := server app) s i choice with same | ⟨t, past, c, next, r, x⟩
    · rwa [same]
    · have kept : TokensKept s.world (s.step (server app) (.act i choice)).world :=
        perform_tokens x.performed
      refine ⟨good', fun row hrow hu => (h.spent row hrow hu).later kept, fun j u hu => ?_⟩
      rw [x.threads] at hu
      rcases getElem?_set_cases hu with ⟨rfl, rfl⟩ | hu
      · refine Or.inr fun route stored live => ?_
        change FoundLive app t (⟨c, r⟩ :: past) stored at live
        rcases List.mem_cons.mp live.1 with here | before
        · cases here
          rintro ⟨row, hrow, hash, huser⟩
          obtain ⟨later, hl, hc, spent⟩ := (h.spent row hrow huser).later kept
          have found := (perform_found x.performed).1
          obtain rfl := good'.world.token_eq found hl (hash.symm.trans hc.hash.symm)
          exact spent live.2
        · exact h.found good settled x.thread rfl route ⟨before, live.2⟩
      · exact h.threads j u hu
  | kill i =>
    rcases Pool.step_kill (m := server app) s i with same | ⟨t, past, c, next, hi, same⟩
    · rwa [same]
    · rw [same] at good' ⊢
      refine ⟨good', h.spent, fun j u hu => ?_⟩
      rcases getElem?_set_cases hu with ⟨rfl, rfl⟩ | hu
      · exact Or.inr fun route stored live => h.found good settled hi rfl route live
      · exact h.threads j u hu
  | env ticks =>
    exact ⟨good', h.spent, h.threads⟩

/-- A refresh that has called for a new token has found the one it presents unrevoked. -/
theorem KnowsTokens.exchanged {rawToken : String} {req : Request} {past : Past Reply} {w : World}
    (knows : KnowsTokens app req past w) (presents : req.presents rawToken = true)
    (made : creations past ≠ 0) : ∃ stored, FoundLive app req past stored ∧
      stored.tokenHash = app.hashRefreshToken rawToken ∧
      ∀ row ∈ createdBy past, row.userID = stored.userID := by
  obtain ⟨route, cookie⟩ := presents_iff.mp presents
  obtain ⟨stored, live, _, users⟩ := knows.rotated route made
  have hash := (knows.found _ stored live.1).1
  rw [cookie, Option.getD_some] at hash
  exact ⟨stored, live, hash, users⟩

/-- What descends from a login completed at the answer is held then, and so revoked. -/
theorem Ended.held {w : World} {s₁ s : ServerPool} {hash : String} (h : Ended app userID s₁ s)
    (good : GoodTokens app s₁) (kept : TokensKept w s₁.world)
    (descends : Descends app userID w s₁ s hash) : Held userID s₁.world hash := by
  induction descends with
  | held hrow huser =>
    obtain ⟨later, hl, hc⟩ := kept _ hrow
    exact ⟨later, hl, hc.hash, hc.user.trans huser⟩
  | login hu _ _ hrow huser =>
    obtain ⟨later, hl, hc⟩ := (good.thread _ hu).created _ hrow
    exact ⟨later, hl, hc.hash, hc.user.trans huser⟩
  | @rotation u rawToken row _ hu presents hrow ih =>
    have made : creations u.past ≠ 0 := by
      have := createdBy_length u.past
      have := List.length_pos_of_mem hrow
      omega
    obtain ⟨stored, live, hash, users⟩ := (h.good.thread u hu).exchanged presents made
    obtain ⟨j, hj⟩ := List.getElem?_of_mem hu
    rcases h.threads j u hj with old | late
    · have knows := good.thread u (List.mem_of_getElem? old)
      obtain ⟨held, hh, hhash, huser⟩ := ih
      obtain ⟨now, hn, hc⟩ := (knows.found _ stored live.1).2
      obtain rfl := good.world.token_eq hn hh (hc.hash.trans (hash.trans hhash.symm))
      obtain ⟨later, hl, hc'⟩ := knows.created row hrow
      exact ⟨later, hl, hc'.hash, hc'.user.trans ((users row hrow).trans (hc.user.symm.trans huser))⟩
    · exact absurd (hash ▸ ih) (late (presents_iff.mp presents).1 stored live)

/-- Once a Refresh of a user has been answered "refresh token already used" while no other had found
a token of that user unrevoked and was still under way, no token that descends from a login
completed before is exchanged any more. -/
theorem family_ended {w : World} {before after : List ServerAction} {i : Nat} {choice : Choice}
    (valid : w.db.Valid) (faultless : choice.fault = .none) :
    let s := Pool.exec (server app) ⟨w, []⟩ before
    let s₁ := s.step (server app) (.act i choice)
    let s₂ := s₁.exec (server app) after
    DetectsReuse app userID s s₁ i → (∀ u ∈ s.threads, ¬ Rotating app userID u) →
    ∀ rawToken, Descends app userID w s₁ s₂ (app.hashRefreshToken rawToken) →
    ∀ (j : Nat) u, s₂.threads[j]? = some u → u.task.presents rawToken = true → succeeded u = true →
      s₁.threads[j]? = some u := by
  intro s s₁ s₂ detects settled rawToken descends j u hu presents success
  have rules : Pool.Local (server app) (fun _ _ => True) (fun w => w.db.Valid) TokensKept
      (KnowsTokens app) := session_rules app
  have good : GoodTokens app s := rules.exec (Pool.good_init valid) (Pool.runMeets_true _ _)
  have good₁ : GoodTokens app s₁ := rules.step good (Pool.meets_true _ _)
  obtain ⟨revoked, u', idle, threads⟩ := detects_revokes good faultless detects
  have settled₁ : ∀ u ∈ s₁.threads, ¬ Rotating app userID u := by
    intro v hv rotating
    rw [show s₁.threads = s.threads.set i u' from threads] at hv
    rcases List.mem_or_eq_of_mem_set hv with hv | rfl
    · exact settled v hv rotating
    · have := rotating.1
      rw [idle] at this
      cases this
  have ended₁ : Ended app userID s₁ s₁ :=
    ⟨good₁, fun row hrow hrowUser => ⟨row, hrow, .refl row, revoked row hrow hrowUser⟩,
      fun _ _ h => Or.inl h⟩
  have ended₂ : Ended app userID s₁ s₂ :=
    Pool.exec_induction (fun _ a h _ => h.step good₁ settled₁ a) ended₁ (Pool.runMeets_true _ _)
  have kept : TokensKept w s₁.world := by
    have run := rules.exec_rely (fun w => tokensKept_same rfl) tokensKept_trans
      (Pool.good_init valid) (Pool.runMeets_true ⟨w, []⟩ (before ++ [.act i choice]))
    rwa [Pool.exec_append] at run
  have held := ended₂.held good₁ kept descends
  have mem := List.mem_of_getElem? hu
  rcases ended₂.threads j u hu with old | late
  · exact old
  · have route := (presents_iff.mp presents).1
    obtain ⟨stored, live, hash, _⟩ := (ended₂.good.thread u mem).exchanged presents
      (succeeded_made (ended₂.good.leads u mem) route success)
    exact absurd (hash ▸ held) (late route stored live)

def sampleLogin : Request := ⟨"", none, .login (.ok ⟨"trip@example.com", "pasta"⟩)⟩

private def sampleLoginStart : ServerPool := ⟨sampleWorld, []⟩

/-- A login, a rotation of its token that has yet to create the new one, and a second use of it. -/
private def sampleReuse : List ServerAction :=
  .arrive sampleLogin :: List.replicate 6 (sampleAct 0 2 "r") ++
    .arrive (sampleRefresh "r") :: List.replicate 8 (sampleAct 1 3 "s") ++
    [.arrive (sampleRefresh "r"), sampleAct 2 4 "t"]

/-- The rotation ends, and its token is exchanged. -/
private def sampleRevival : List ServerAction :=
  sampleAct 1 3 "s" :: .arrive (sampleRefresh "s") :: List.replicate 9 (sampleAct 3 5 "u")

theorem family_survives :
    let s := sampleLoginStart.exec (server sampleApp) sampleReuse
    let s₁ := s.step (server sampleApp) (sampleAct 2 4 "t")
    let s₂ := s₁.exec (server sampleApp) sampleRevival
    DetectsReuse sampleApp sampleUser.id s s₁ 2 ∧
      Descends sampleApp sampleUser.id sampleWorld s₁ s₂ (sampleApp.hashRefreshToken "s") ∧
      (∃ u ∈ s₂.threads[3]?, u.task.presents "s" = true ∧ succeeded u = true) ∧
      s₁.threads.length = 3 := by
  intro s s₁ s₂
  refine ⟨by decide +kernel, ?_, by decide +kernel, by decide +kernel⟩
  obtain ⟨u, hu, login, ok, row, hrow, hash, user⟩ : ∃ u ∈ s₁.threads,
      u.task.route.isLogin = true ∧ succeeded u = true ∧ ∃ row ∈ createdBy u.past,
        row.tokenHash = sampleApp.hashRefreshToken "r" ∧ row.userID = sampleUser.id := by
    decide +kernel
  obtain ⟨v, hv, presents, row', hrow', hash'⟩ : ∃ v ∈ s₂.threads, v.task.presents "r" = true ∧
      ∃ row ∈ createdBy v.past, row.tokenHash = sampleApp.hashRefreshToken "s" := by
    decide +kernel
  have first : Descends sampleApp sampleUser.id sampleWorld s₁ s₂ row.tokenHash :=
    .login hu login ok hrow user
  rw [hash] at first
  exact hash' ▸ .rotation first hv presents hrow'

private def foundToken : Sigma Reply → Option RefreshToken
  | ⟨.query (.findRefreshTokenByHash _), .ok stored⟩ => some stored
  | _ => none

/-- A login, a rotation of its token, and a second use of it. -/
private def sampleTheft : List ServerAction :=
  .arrive sampleLogin :: List.replicate 6 (sampleAct 0 2 "r") ++
    .arrive (sampleRefresh "r") :: List.replicate 9 (sampleAct 1 3 "s") ++
    [.arrive (sampleRefresh "r"), sampleAct 2 4 "t"]

private def sampleAttempt : List ServerAction :=
  .arrive (sampleRefresh "s") :: List.replicate 9 (sampleAct 3 5 "u")

theorem family_ended_theft :
    let s := sampleLoginStart.exec (server sampleApp) sampleTheft
    let s₁ := s.step (server sampleApp) (sampleAct 2 4 "t")
    let s₂ := s₁.exec (server sampleApp) sampleAttempt
    (∃ u ∈ s₂.threads[3]?, u.task.presents "s" = true ∧ u.result = some Users.alreadyUsed) ∧
      ∀ (j : Nat) u, s₂.threads[j]? = some u → u.task.presents "s" = true → succeeded u = true →
        s₁.threads[j]? = some u := by
  intro s s₁ s₂
  refine ⟨by decide +kernel, ?_⟩
  obtain ⟨u, hu, login, ok, row, hrow, hash, user⟩ : ∃ u ∈ s₁.threads,
      u.task.route.isLogin = true ∧ succeeded u = true ∧ ∃ row ∈ createdBy u.past,
        row.tokenHash = sampleApp.hashRefreshToken "r" ∧ row.userID = sampleUser.id := by
    decide +kernel
  obtain ⟨v, hv, presents, row', hrow', hash'⟩ : ∃ v ∈ s₂.threads, v.task.presents "r" = true ∧
      ∃ row ∈ createdBy v.past, row.tokenHash = sampleApp.hashRefreshToken "s" := by
    decide +kernel
  have first : Descends sampleApp sampleUser.id sampleWorld s₁ s₂ row.tokenHash :=
    .login hu login ok hrow user
  rw [hash] at first
  have settled : ∀ u ∈ s.threads, u.pending.isSome = true →
      ∀ stored ∈ u.past.filterMap foundToken, stored.revokedAt ≠ none := by
    decide +kernel
  have detects : DetectsReuse sampleApp sampleUser.id s s₁ 2 := by decide +kernel
  have second : Descends sampleApp sampleUser.id sampleWorld s₁ s₂
      (sampleApp.hashRefreshToken "s") := hash' ▸ .rotation first hv presents hrow'
  refine family_ended sampleWorld_valid rfl detects ?_ "s" second
  rintro u hu ⟨pending, _, stored, live, _⟩
  exact settled u hu pending stored (List.mem_filterMap.mpr ⟨_, live.1, rfl⟩) live.2

end ItalyTrip
