import ItalyTrip.Sessions

namespace ItalyTrip

open Calls

/-- The request has found its credentials good. -/
inductive Admitted (app : Application) (req : Request) (past : Past Reply) : Prop
  | bearer {token t subject id user route} (route : req.route = .authorized route)
      (signed : Signed app req.authorization token t subject id) (time : ⟨.now, t⟩ ∈ past)
      (found : ⟨.query (.findUserById id), .ok user⟩ ∈ past)
  | password {body user} (route : req.route = .login (.ok body))
      (found : ⟨.query (.findUserByEmail body.email), .ok user⟩ ∈ past)
      (password : app.compareHashAndPassword user.passwordHash body.password = true)
  | cookie {token : RefreshToken} (route : req.route = .refresh) (present : req.cookie.getD "" ≠ "")
      (found : ⟨.query (.findRefreshTokenByHash (app.hashRefreshToken (req.cookie.getD ""))),
        .ok token⟩ ∈ past)

/-- The calls that check credentials. -/
def Call.checks : Call → Bool
  | .now | .query (.findUserById _) | .query (.findUserByEmail _) | .query (.findRefreshTokenByHash _) =>
    true
  | _ => false

/-- An error that takes a cookie away or leaves it alone. -/
def TurnedAway (response : Response) : Prop :=
  (∃ message code, response.body = .error message code) ∧ 400 ≤ response.status ∧
    ∀ cookie, response.cookie = some cookie → cookie = ⟨"", -1⟩

variable {app : Application} {past : Past Reply} {req : Request}

theorem Admitted.cons {x : Sigma Reply} (h : Admitted app req past) : Admitted app req (x :: past) := by
  cases h with
  | bearer route signed time found =>
    exact .bearer route signed (List.mem_cons_of_mem _ time) (List.mem_cons_of_mem _ found)
  | password route found password =>
    exact .password route (List.mem_cons_of_mem _ found) password
  | cookie route present found => exact .cookie route present (List.mem_cons_of_mem _ found)

/-- Only a request whose credentials were good does more than check them. -/
def CallAdmitted (app : Application) (req : Request) (past : Past Reply) (c : Call) : Prop :=
  c.checks = false → Admitted app req past

def AnswerAdmitted (app : Application) (req : Request) (past : Past Reply) (response : Response) : Prop :=
  TurnedAway response ∨ Admitted app req past

/-- Once a request has been admitted, it stays so. -/
theorem Admitted.onwards {α : Type} (h : Admitted app req past) (p : Handler α)
    (answer : Except Response α → Response) :
    p.run.Ensures (CallAdmitted app req)
      (fun past result => AnswerAdmitted app req past (answer result)) past := by
  refine ((Prog.ensures_true p.run).keeps (K := Admitted app req) (fun _ _ _ _ h => h.cons) h).mono ?_ ?_
  · exact fun _ _ admitted _ => admitted
  · exact fun _ _ admitted => Or.inr admitted

/-- The user is still there, with the address and the password it had. -/
def UserKept (user : User) (w : World) : Prop := ∃ later ∈ w.db.users,
  later.id = user.id ∧ later.email = user.email ∧ later.passwordHash = user.passwordHash

theorem userKept_mem {user : User} {w : World} (h : user ∈ w.db.users) : UserKept user w :=
  ⟨user, h, rfl, rfl, rfl⟩

theorem UserKept.of_mem {user : User} {w w' : World} (h : UserKept user w)
    (kept : ∀ later ∈ w.db.users, UserKept later w') : UserKept user w' := by
  obtain ⟨now, hn, id, email, password⟩ := h
  obtain ⟨later, hl, id', email', password'⟩ := kept now hn
  exact ⟨later, hl, id'.trans id, email'.trans email, password'.trans password⟩

theorem perform_users {o : Choice} {w w' : World} {c : Call} {r : Reply c}
    (h : perform o w c = some (r, w')) : ∀ user ∈ w.db.users, UserKept user w' := by
  intro user hu
  have unwritten : w'.db.users = w.db.users → UserKept user w' := fun same =>
    userKept_mem (same ▸ hu)
  rcases perform_effect h with hdb | ⟨q, rfl, hdb⟩
  · exact unwritten (by rw [hdb])
  · cases q with
    | createUser arg =>
      rcases Database.createUser_cases w.db o.defaults arg with ⟨hx, _⟩ | ⟨row, hx, _⟩
      · exact unwritten (by rw [hdb]; exact congrArg _ hx)
      · refine userKept_mem ?_
        rw [hdb]
        change user ∈ (w.db.createUser o.defaults arg).2.users
        rw [hx]
        exact List.mem_append_left _ hu
    | setActiveEvent id eventID =>
      rcases @Database.setActiveEvent_cases w.db id eventID with hx | ⟨hx, _⟩
      · exact unwritten (by rw [hdb]; exact congrArg _ hx)
      · refine ⟨if user.id = id then { user with activeEventID := some eventID } else user, ?_, ?_⟩
        · rw [hdb]
          change _ ∈ (w.db.setActiveEvent id eventID).2.users
          rw [hx]
          exact List.mem_map_of_mem hu
        · split <;> exact ⟨rfl, rfl, rfl⟩
    | _ => exact unwritten (by rw [hdb]; exact (Database.exec_frame _).1 (by simp [Query.writes]))

/-- What a request was told when its credentials were checked is still so. -/
def StillSo (s : ServerPool) : Sigma Reply → Prop
  | ⟨.now, t⟩ => t ≤ s.world.clock
  | ⟨.query (.findUserById id), .ok user⟩ => user.id = id ∧ UserKept user s.world
  | ⟨.query (.findUserByEmail email), .ok user⟩ => user.email = email ∧ UserKept user s.world
  | ⟨.query (.findRefreshTokenByHash hash), .ok token⟩ => token.tokenHash = hash ∧ Kept token s.world
  | _ => True

/-- What a step leaves of the users, the tokens and the time. -/
structure Forward (w w' : World) : Prop where
  users : ∀ user ∈ w.db.users, UserKept user w'
  tokens : TokensKept w w'
  clock : w.clock ≤ w'.clock

theorem step_forward (app : Application) (s : ServerPool) (a : ServerAction) :
    Forward s.world (s.step (server app) a).world := by
  rcases Pool.step_world (m := server app) s a with same | ⟨_, _, _, _, _, _, _, x, _⟩ | ⟨e, he⟩
  · rw [same]
    exact ⟨fun _ => userKept_mem, tokensKept_same rfl, Int.le_refl _⟩
  · exact ⟨perform_users x.performed, perform_tokens x.performed, perform_clock x.performed⟩
  · rw [he]
    exact ⟨fun _ => userKept_mem, tokensKept_same rfl,
      Int.le_add_of_nonneg_right (Int.natCast_nonneg _)⟩

theorem StillSo.step {s : ServerPool} {a : ServerAction} {x : Sigma Reply} (h : StillSo s x) :
    StillSo (s.step (server app) a) x := by
  have forward := step_forward app s a
  unfold StillSo at h ⊢
  split
  next => exact Int.le_trans h forward.clock
  next => exact ⟨h.1, h.2.of_mem forward.users⟩
  next => exact ⟨h.1, h.2.of_mem forward.users⟩
  next => exact ⟨h.1, h.2.later forward.tokens⟩
  next => trivial

end ItalyTrip
