import ItalyTrip.Sessions

namespace ItalyTrip

open Calls

def Route.isRefresh : Route → Bool
  | .refresh => true
  | _ => false

theorem Route.isRefresh_iff {route : Route} : route.isRefresh = true ↔ route = .refresh := by
  cases route <;> simp [Route.isRefresh]

/-- A Refresh request with this cookie. -/
def Request.presents (req : Request) (rawToken : String) : Bool :=
  req.route.isRefresh && req.cookie == some rawToken

def succeeded (u : Thread Call Reply Request Response) : Bool :=
  u.result.any fun response => response.status == 200

def revokedID : Call → Option UUID
  | .query (.revokeRefreshToken id) => some id
  | _ => none

/-- A refresh that revokes its token still finds it unrevoked. -/
def RevokesLive : Pool.Condition Reply World Request := fun w x =>
  ∀ token ∈ w.db.refreshTokens, revokedID x.call = some token.id → token.revokedAt = none

instance (w : World) (x : Pool.Event Reply World Request) : Decidable (RevokesLive w x) :=
  inferInstanceAs (Decidable (∀ token ∈ w.db.refreshTokens, _ → _))

def isRevocation : Sigma Reply → Bool
  | ⟨.query (.revokeRefreshToken _), .ok _⟩ => true
  | _ => false

/-- The request has revoked its token. -/
def spends (rawToken : String) (req : Request) (past : Past Reply) : Bool :=
  req.presents rawToken && past.any isRevocation

variable {app : Application}

theorem isRevocation_iff {x : Sigma Reply} :
    isRevocation x = true ↔ ∃ id, x = ⟨.query (.revokeRefreshToken id), .ok ()⟩ := by
  unfold isRevocation
  split
  next id u => simp
  next hx =>
    simp only [Bool.false_eq_true, false_iff]
    rintro ⟨id, rfl⟩
    exact hx id () rfl

theorem presents_iff {req : Request} {rawToken : String} :
    req.presents rawToken = true ↔ req.route = .refresh ∧ req.cookie = some rawToken := by
  simp [Request.presents, Route.isRefresh_iff]

theorem spends_iff {rawToken : String} {req : Request} {past : Past Reply} :
    spends rawToken req past = true ↔ req.route = .refresh ∧ req.cookie = some rawToken ∧
      ∃ id, ⟨.query (.revokeRefreshToken id), .ok ()⟩ ∈ past := by
  simp only [spends, Bool.and_eq_true, presents_iff, List.any_eq_true, isRevocation_iff, and_assoc]
  refine and_congr_right fun _ => and_congr_right fun _ => ⟨?_, ?_⟩
  · rintro ⟨_, hx, id, rfl⟩
    exact ⟨id, hx⟩
  · rintro ⟨id, hx⟩
    exact ⟨_, hx, id, rfl⟩

/-- A refresh creates a token only after it has revoked the one it presents. -/
theorem KnowsTokens.spends {rawToken : String} {req : Request} {past : Past Reply} {w : World}
    (knows : KnowsTokens app req past w) (presents : req.presents rawToken = true)
    (made : creations past ≠ 0) : ItalyTrip.spends rawToken req past = true := by
  obtain ⟨route, cookie⟩ := presents_iff.mp presents
  obtain ⟨stored, _, revoked, _⟩ := knows.rotated route made
  exact spends_iff.mpr ⟨route, cookie, stored.id, revoked⟩

/-- A refresh answered with 200 has called for a new token. -/
theorem succeeded_made {u : Thread Call Reply Request Response}
    (leads : ∀ q, u.rest = some q → (serve app u.task).Leads u.past q)
    (route : u.task.route = .refresh) (h : succeeded u = true) : creations u.past ≠ 0 := by
  obtain ⟨response, hres, status⟩ := (Option.any_eq_true _ _).mp h
  have done := (serve_tokens u.task).at_done (leads _ (Thread.rest_of_result hres))
  exact (done route).1 (beq_iff_eq.mp status)

theorem sum_filter_le_countP {α : Type} {p q : α → Bool} {f : α → Nat} {xs : List α}
    (h : ∀ x ∈ xs, p x = true → f x ≤ if q x then 1 else 0) :
    ((xs.filter p).map f).sum ≤ xs.countP q := by
  induction xs with
  | nil => simp
  | cons x xs ih =>
    have rest := ih fun y hy => h y (List.mem_cons_of_mem _ hy)
    have here := h x List.mem_cons_self
    rw [List.countP_cons]
    cases hp : p x with
    | true =>
      have := here hp
      simp only [List.filter_cons, hp, if_true, List.map_cons, List.sum_cons]
      omega
    | false =>
      simp only [List.filter_cons, hp, Bool.false_eq_true, if_false]
      omega

/-- At most one of the requests that present a token revokes it. -/
theorem spent_once {w : World} {actions : List (ServerAction)}
    (rawToken : String) (valid : w.db.Valid)
    (live : Pool.RunMeets (server app) RevokesLive ⟨w, []⟩ actions) :
    (Pool.exec (server app) ⟨w, []⟩ actions).threads.countP
      (fun u => spends rawToken u.task u.past) ≤ 1 := by
  have known : ∀ req past w, KnowsTokens app req past w → spends rawToken req past = true →
      ∃ token ∈ w.db.refreshTokens,
        token.tokenHash = app.hashRefreshToken rawToken ∧ token.revokedAt ≠ none := by
    intro req past w knows marked
    obtain ⟨route, cookie, id, revoked⟩ := spends_iff.mp marked
    obtain ⟨stored, found, rfl⟩ := knows.looked id _ revoked
    obtain ⟨later, hl, hc, hr⟩ := knows.spent route stored found revoked
    have hash := (knows.found _ stored found.1).1
    rw [cookie, Option.getD_some] at hash
    exact ⟨later, hl, hc.hash.trans hash, hr⟩
  refine (session_rules app).at_most_one (fun req => by simp [spends]) known ?_
    (Pool.good_init valid) (by simp) live
  rintro req past c next o r w w' leads valid knows hp live marked unmarked ⟨token, ht, hash, spent⟩
  obtain ⟨route, cookie, id, revoked⟩ := spends_iff.mp marked
  rcases List.mem_cons.mp revoked with here | before
  · cases here
    obtain ⟨_, stored, found, rfl⟩ := (serve_tokens req).at_call leads
    obtain ⟨shash, now, hn, hc⟩ := knows.found _ stored found.1
    rw [cookie, Option.getD_some] at shash
    obtain rfl := valid.token_eq hn ht ((hc.hash.trans shash).trans hash.symm)
    exact spent (live now hn (congrArg some hc.id.symm))
  · have old := spends_iff.mpr ⟨route, cookie, id, before⟩
    rw [unmarked] at old
    cases old

/-- While every refresh finds the token it revokes unrevoked, a refresh token is exchanged at most
once, whatever else the server does meanwhile. -/
theorem exchanged_once {w : World} {actions : List (ServerAction)}
    {rawToken : String} (valid : w.db.Valid)
    (live : Pool.RunMeets (server app) RevokesLive ⟨w, []⟩ actions) :
    let threads := (Pool.exec (server app) ⟨w, []⟩ actions).threads
    (threads.countP fun u => u.task.presents rawToken && succeeded u) ≤ 1 ∧
      ((threads.filter fun u => u.task.presents rawToken).map fun u => creations u.past).sum ≤ 1 := by
  have once := spent_once rawToken valid live
  have good := (session_rules app).exec (Pool.good_init valid) live
  refine ⟨Nat.le_trans (List.countP_mono_left ?_) once,
    Nat.le_trans (sum_filter_le_countP ?_) once⟩
  · intro u hu h
    rw [Bool.and_eq_true] at h
    have route := (presents_iff.mp h.1).1
    exact (good.thread u hu).spends h.1 (succeeded_made (good.leads u hu) route h.2)
  · intro u hu presents
    have knows := good.thread u hu
    by_cases made : creations u.past = 0
    · omega
    · rw [if_pos (knows.spends presents made)]
      exact knows.once

/-- The shared account with one refresh token, good for a minute. -/
def sampleSession : World :=
  ⟨⟨[sampleUser], [], [], [⟨2, 1, "#r", 60000000000, none⟩]⟩, [], 0⟩

def sampleRefresh (rawToken : String) : Request := ⟨"", some rawToken, .refresh⟩

/-- The next call of thread `i`, answered without a fault. -/
def sampleAct (i : Nat) (id : UUID) (text : String) : ServerAction :=
  .act i { sampleChoice 0 id 0 with text := text }

private def sampleRefreshStart : ServerPool := ⟨sampleSession, []⟩

/-- Both requests look the token up before either revokes it. -/
private def sampleDouble : List (ServerAction) :=
  [.arrive (sampleRefresh "r"), .arrive (sampleRefresh "r"), sampleAct 0 3 "s", sampleAct 1 4 "t"] ++
    List.replicate 8 (sampleAct 0 3 "s") ++ List.replicate 8 (sampleAct 1 4 "t")

theorem token_exchanged_twice :
    let s := sampleRefreshStart.exec (server sampleApp) sampleDouble
    (s.threads.countP fun u => u.task.presents "r" && succeeded u) = 2 ∧
      s.world.db.refreshTokens.length = 3 := by
  decide +kernel

theorem sampleSession_valid : sampleSession.db.Valid := by
  constructor <;> simp [sampleSession, sampleUser, Database.hasUser]

/-- The second request comes after the first has been answered. -/
private def sampleRetry : List (ServerAction) :=
  .arrive (sampleRefresh "r") :: List.replicate 9 (sampleAct 0 3 "s") ++
    .arrive (sampleRefresh "r") :: List.replicate 2 (sampleAct 1 4 "t")

theorem exchanged_once_retry :
    let threads := (sampleRefreshStart.exec (server sampleApp) sampleRetry).threads
    (threads.countP fun u => u.task.presents "r" && succeeded u) = 1 ∧
      (threads.countP fun u => u.task.presents "r" && succeeded u) ≤ 1 ∧
      ((threads.filter fun u => u.task.presents "r").map fun u => creations u.past).sum ≤ 1 :=
  ⟨by decide +kernel, exchanged_once sampleSession_valid (by decide +kernel)⟩

end ItalyTrip
