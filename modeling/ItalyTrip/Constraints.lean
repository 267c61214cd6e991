import ItalyTrip.Database

namespace ItalyTrip

namespace Database

/-- The constraints Postgres enforces on the four tables. -/
structure Valid (db : Database) : Prop where
  users_id : (db.users.map User.id).Nodup
  users_email : (db.users.map User.email).Nodup
  users_event : ∀ u ∈ db.users, ∀ id, u.activeEventID = some id → db.hasEvent id = true
  events_id : (db.events.map Event.id).Nodup
  events_user : ∀ e ∈ db.events, ∃ id, e.userID = some id ∧ db.hasUser id = true
  photos_id : (db.photos.map Photo.id).Nodup
  photos_client : (db.photos.map fun p => (p.eventID, p.clientID)).Nodup
  photos_event : ∀ p ∈ db.photos, db.hasEvent p.eventID = true
  photos_user : ∀ p ∈ db.photos, db.hasUser p.uploadedBy = true
  tokens_id : (db.refreshTokens.map RefreshToken.id).Nodup
  tokens_hash : (db.refreshTokens.map RefreshToken.tokenHash).Nodup
  tokens_user : ∀ t ∈ db.refreshTokens, db.hasUser t.userID = true

theorem hasEvent_iff {db : Database} {id : UUID} :
    db.hasEvent id = true ↔ ∃ e ∈ db.events, e.id = id := by
  simp [hasEvent]

theorem hasUser_iff {db : Database} {id : UUID} :
    db.hasUser id = true ↔ ∃ u ∈ db.users, u.id = id := by
  simp [hasUser]

theorem nodup_map_concat {α κ : Type} [BEq κ] [LawfulBEq κ] {key : α → κ} {xs : List α} {x : α}
    (h : (xs.map key).Nodup) (fresh : xs.any (fun y => key y == key x) = false) :
    ((xs ++ [x]).map key).Nodup := by
  rw [List.map_append, List.map_singleton]
  refine List.nodup_append.mpr ⟨h, by simp, ?_⟩
  intro a ha b hb
  obtain ⟨y, hy, rfl⟩ := List.mem_map.mp ha
  rw [List.mem_singleton.mp hb]
  have := List.any_eq_false.mp fresh y hy
  simpa using this

variable (db : Database) (defaults : Defaults) {now : Instant}

/-- A new event row comes last and is otherwise what the parameters say. -/
theorem createEvent_cases (arg : CreateEventParams) :
    ((db.createEvent defaults arg).2 = db ∧ ∃ e, (db.createEvent defaults arg).1 = .error e) ∨
    ∃ row : Event, db.createEvent defaults arg = (.ok row, { db with events := db.events ++ [row] }) ∧
      row.id = defaults.id ∧ row.createdAt = defaults.createdAt ∧
      row.endsAt = timestamptz arg.endsAt ∧ row.userID = some arg.userID ∧
      db.hasEvent row.id = false ∧ db.hasUser arg.userID = true := by
  unfold createEvent
  split
  next => exact Or.inl ⟨rfl, _, rfl⟩
  next hid =>
    split
    next => exact Or.inl ⟨rfl, _, rfl⟩
    next hu => exact Or.inr ⟨_, rfl, rfl, rfl, rfl, rfl, by simpa using hid, by simpa using hu⟩

theorem createEvent_accepted {arg : CreateEventParams} (fresh : db.hasEvent defaults.id = false)
    (user : db.hasUser arg.userID = true) :
    let row : Event := ⟨defaults.id, arg.name, timestamptz arg.startsAt, timestamptz arg.endsAt,
      defaults.createdAt, some arg.userID⟩
    db.createEvent defaults arg = (.ok row, { db with events := db.events ++ [row] }) := by
  refine (if_neg (Bool.eq_false_iff.mp fresh)).trans (if_neg ?_)
  rw [user]
  decide

/-- A photo is refused for an id or a `client_id` that is taken, or for a missing event or user. -/
theorem createPhoto_cases (arg : CreatePhotoParams) :
    (db.createPhoto arg = (.error .uniqueViolation, db) ∧
      (db.photos.any (fun p => p.id == arg.id) = true ∨
        db.photos.any (fun p => p.eventID == arg.eventID && p.clientID == arg.clientID) = true)) ∨
    (db.createPhoto arg = (.error .failure, db) ∧
      (db.hasEvent arg.eventID = false ∨ db.hasUser arg.uploadedBy = false)) ∨
    db.createPhoto arg = (.ok arg.row, { db with photos := db.photos ++ [arg.row] }) ∧
      db.photos.any (fun p => p.id == arg.id) = false ∧
      db.photos.any (fun p => p.eventID == arg.eventID && p.clientID == arg.clientID) = false ∧
      db.hasEvent arg.eventID = true ∧ db.hasUser arg.uploadedBy = true := by
  unfold createPhoto
  split
  next taken => exact Or.inl ⟨rfl, Bool.or_eq_true_iff.mp taken⟩
  next fresh =>
    split
    next missing => exact Or.inr (Or.inl ⟨rfl, by simpa using missing⟩)
    next known =>
      simp only [Bool.or_eq_true, not_or, Bool.not_eq_true] at fresh known
      refine Or.inr (Or.inr ⟨rfl, fresh.1, fresh.2, ?_, ?_⟩)
      · simpa using known.1
      · simpa using known.2

theorem createPhoto_ok {arg : CreatePhotoParams} {row : Photo} {db' : Database}
    (h : db.createPhoto arg = (.ok row, db')) :
    row = arg.row ∧ db' = { db with photos := db.photos ++ [arg.row] } := by
  rcases createPhoto_cases db arg with ⟨hx, _⟩ | ⟨hx, _⟩ | ⟨hx, _⟩ <;> rw [hx] at h <;> cases h
  exact ⟨rfl, rfl⟩

theorem createRefreshToken_cases (arg : CreateRefreshTokenParams) :
    ((db.createRefreshToken defaults arg).2 = db ∧
      ∃ e, (db.createRefreshToken defaults arg).1 = .error e) ∨
    ∃ row : RefreshToken, db.createRefreshToken defaults arg =
        (.ok row, { db with refreshTokens := db.refreshTokens ++ [row] }) ∧
      row.tokenHash = arg.tokenHash ∧ row.userID = arg.userID ∧ row.revokedAt = none ∧
      db.refreshTokens.any (·.id == row.id) = false ∧
      db.refreshTokens.any (·.tokenHash == row.tokenHash) = false ∧
      db.hasUser row.userID = true := by
  unfold createRefreshToken
  split
  next => exact Or.inl ⟨rfl, _, rfl⟩
  next hid =>
    split
    next => exact Or.inl ⟨rfl, _, rfl⟩
    next hu =>
      simp only [Bool.or_eq_true, not_or, Bool.not_eq_true] at hid
      exact Or.inr ⟨_, rfl, rfl, rfl, rfl, hid.1, hid.2, by simpa using hu⟩

theorem createUser_cases (arg : CreateUserParams) :
    ((db.createUser defaults arg).2 = db ∧ ∃ e, (db.createUser defaults arg).1 = .error e) ∨
    ∃ row : User, db.createUser defaults arg = (.ok row, { db with users := db.users ++ [row] }) ∧
      row.email = arg.email ∧ row.activeEventID = none ∧
      db.users.any (·.id == row.id) = false ∧ db.users.any (·.email == row.email) = false := by
  unfold createUser
  split
  next => exact Or.inl ⟨rfl, _, rfl⟩
  next hid =>
    simp only [Bool.or_eq_true, not_or, Bool.not_eq_true] at hid
    exact Or.inr ⟨_, rfl, rfl, rfl, hid.1, hid.2⟩

theorem setActiveEvent_cases (id activeEventID : UUID) :
    (db.setActiveEvent id activeEventID).2 = db ∨
    (db.setActiveEvent id activeEventID).2 = { db with users := db.users.map fun u =>
      if u.id = id then { u with activeEventID := some activeEventID } else u } ∧
      (db.hasUser id = false ∨ db.hasEvent activeEventID = true) := by
  unfold setActiveEvent
  split
  next => exact Or.inl rfl
  next h =>
    refine Or.inr ⟨rfl, ?_⟩
    cases hu : db.hasUser id
    · exact Or.inl rfl
    · simpa [hu] using h

theorem setActiveEvent_accepted (id : UUID) {activeEventID : UUID}
    (event : db.hasEvent activeEventID = true) : db.setActiveEvent id activeEventID =
      (.ok (), { db with users := db.users.map fun u =>
        if u.id = id then { u with activeEventID := some activeEventID } else u }) := by
  refine if_neg ?_
  rw [event, Bool.not_true, Bool.and_false]
  decide

variable {db defaults}

/-- The tables a query does not write stay as they are. -/
theorem exec_frame (q : Query) :
    (.users ∉ q.writes → (db.exec defaults now q).2.users = db.users) ∧
    (.events ∉ q.writes → (db.exec defaults now q).2.events = db.events) ∧
    (.photos ∉ q.writes → (db.exec defaults now q).2.photos = db.photos) ∧
    (.refreshTokens ∉ q.writes →
      (db.exec defaults now q).2.refreshTokens = db.refreshTokens) := by
  cases q with
  | createEvent arg =>
    rcases createEvent_cases db defaults arg with
      ⟨hx, _⟩ | ⟨row, hx, _⟩ <;> simp [exec, hx, Query.writes]
  | createPhoto arg =>
    rcases createPhoto_cases db arg with ⟨hx, _⟩ | ⟨hx, _⟩ | ⟨hx, _⟩ <;>
      simp [exec, hx, Query.writes]
  | createRefreshToken arg =>
    rcases createRefreshToken_cases db defaults arg with
      ⟨hx, _⟩ | ⟨row, hx, _⟩ <;> simp [exec, hx, Query.writes]
  | createUser arg =>
    rcases createUser_cases db defaults arg with
      ⟨hx, _⟩ | ⟨row, hx, _⟩ <;> simp [exec, hx, Query.writes]
  | setActiveEvent id e =>
    rcases setActiveEvent_cases db id e with hx | ⟨hx, _⟩ <;> simp [exec, hx, Query.writes]
  | revokeRefreshToken id => simp [exec, revokeRefreshToken, Query.writes]
  | revokeRefreshTokensForUser id => simp [exec, revokeRefreshTokensForUser, Query.writes]
  | _ => simp [exec]

/-- A query that writes nothing depends on the tables alone. -/
theorem exec_read {q : Query} (h : q.writes = []) (defaults' : Defaults) (now' : Instant) :
    db.exec defaults now q = ((db.exec defaults' now' q).1, db) := by
  cases q <;> first | rfl | simp [Query.writes] at h

theorem hasUser_setActive {id activeEventID x : UUID} :
    hasUser { db with users := db.users.map fun u =>
      if u.id = id then { u with activeEventID := some activeEventID } else u } x =
      db.hasUser x := by
  simp only [hasUser, List.any_map]
  congr 1
  funext u
  simp only [Function.comp]
  split <;> rfl

/-- Users are never deleted. -/
theorem exec_hasUser {id : UUID} (h : db.hasUser id = true) (q : Query) :
    (db.exec defaults now q).2.hasUser id = true := by
  by_cases hw : Table.users ∈ q.writes
  · cases q with
    | createUser arg =>
      rcases createUser_cases db defaults arg with ⟨hx, _⟩ | ⟨row, hx, _⟩
      · simpa only [exec, hx] using h
      · simp only [exec, hx]
        rw [hasUser, List.any_append, Bool.or_eq_true]
        exact Or.inl h
    | setActiveEvent userID e =>
      rcases setActiveEvent_cases db userID e with hx | ⟨hx, _⟩
      · simpa only [exec, hx] using h
      · simp only [exec, hx]
        exact hasUser_setActive.trans h
    | _ => simp [Query.writes] at hw
  · simpa only [hasUser, (exec_frame q).1 hw] using h

theorem setActiveEvent_valid (h : db.Valid) (id activeEventID : UUID) :
    (db.setActiveEvent id activeEventID).2.Valid := by
  rcases setActiveEvent_cases db id activeEventID with hx | ⟨hx, hc⟩
  · rwa [hx]
  · rw [hx]
    have keep : ∀ {κ : Type} (key : User → κ), (∀ u a, key { u with activeEventID := a } = key u) →
        (db.users.map fun u => if u.id = id then { u with activeEventID := some activeEventID }
          else u).map key = db.users.map key := by
      intro κ key hkey
      rw [List.map_map]
      refine List.map_congr_left fun u _ => ?_
      simp only [Function.comp]
      split
      · exact hkey u _
      · rfl
    refine ⟨?_, ?_, ?_, h.events_id, ?_, h.photos_id, h.photos_client, h.photos_event, ?_,
      h.tokens_id, h.tokens_hash, ?_⟩
    · exact (keep User.id fun _ _ => rfl) ▸ h.users_id
    · exact (keep User.email fun _ _ => rfl) ▸ h.users_email
    · intro u hu e he
      obtain ⟨v, hv, rfl⟩ := List.mem_map.mp hu
      split at he
      next hid =>
        obtain rfl := Option.some.inj he
        rcases hc with hc | hc
        · have hasv : db.hasUser id = true := hasUser_iff.mpr ⟨v, hv, hid⟩
          rw [hc] at hasv
          exact absurd hasv (by simp)
        · exact hc
      next => exact h.users_event v hv e he
    · intro e he
      obtain ⟨u, hu, hus⟩ := h.events_user e he
      exact ⟨u, hu, hasUser_setActive.trans hus⟩
    · exact fun p hp => hasUser_setActive.trans (h.photos_user p hp)
    · exact fun t ht => hasUser_setActive.trans (h.tokens_user t ht)

/-- Setting `revoked_at` changes no column that a constraint reads. -/
theorem mapTokens_valid (h : db.Valid) {f : RefreshToken → RefreshToken}
    (hid : ∀ t, (f t).id = t.id) (hhash : ∀ t, (f t).tokenHash = t.tokenHash)
    (huser : ∀ t, (f t).userID = t.userID) :
    ({ db with refreshTokens := db.refreshTokens.map f } : Database).Valid := by
  have keep : ∀ {κ : Type} (key : RefreshToken → κ), (∀ t, key (f t) = key t) →
      (db.refreshTokens.map f).map key = db.refreshTokens.map key := by
    intro κ key hkey
    rw [List.map_map]
    exact List.map_congr_left fun t _ => hkey t
  refine { h with tokens_id := ?_, tokens_hash := ?_, tokens_user := ?_ }
  · exact (keep _ hid) ▸ h.tokens_id
  · exact (keep _ hhash) ▸ h.tokens_hash
  · intro t ht
    obtain ⟨t', ht', rfl⟩ := List.mem_map.mp ht
    rw [huser]
    exact h.tokens_user t' ht'

/-- Every database call keeps the constraints. -/
theorem exec_valid (h : db.Valid) (q : Query) : (db.exec defaults now q).2.Valid := by
  cases q with
  | createEvent arg =>
    rcases createEvent_cases db defaults arg with
      ⟨hx, _⟩ | ⟨row, hx, _, _, _, huser, hfresh, hu⟩
    · simpa only [exec, hx] using h
    · have grow : ∀ {x}, db.hasEvent x = true →
          hasEvent { db with events := db.events ++ [row] } x = true := by
        intro x hx
        rw [hasEvent, List.any_append, Bool.or_eq_true]
        exact Or.inl hx
      simp only [exec, hx]
      refine { h with users_event := ?_, events_id := ?_, events_user := ?_, photos_event := ?_ }
      · exact fun u hu id hid => grow (h.users_event u hu id hid)
      · exact nodup_map_concat h.events_id hfresh
      · intro e he
        rcases List.mem_append.mp he with he | he
        · exact h.events_user e he
        · rw [List.mem_singleton.mp he]
          exact ⟨_, huser, hu⟩
      · exact fun p hp => grow (h.photos_event p hp)
  | createPhoto arg =>
    rcases createPhoto_cases db arg with
      ⟨hx, _⟩ | ⟨hx, _⟩ | ⟨hx, hid, hclient, hevent, huser⟩
    · simpa only [exec, hx] using h
    · simpa only [exec, hx] using h
    · simp only [exec, hx]
      refine { h with photos_id := ?_, photos_client := ?_, photos_event := ?_, photos_user := ?_ }
      · exact nodup_map_concat h.photos_id hid
      · exact nodup_map_concat h.photos_client hclient
      · intro p hp
        rcases List.mem_append.mp hp with hp | hp
        · exact h.photos_event p hp
        · rwa [List.mem_singleton.mp hp]
      · intro p hp
        rcases List.mem_append.mp hp with hp | hp
        · exact h.photos_user p hp
        · rwa [List.mem_singleton.mp hp]
  | createRefreshToken arg =>
    rcases createRefreshToken_cases db defaults arg with
      ⟨hx, _⟩ | ⟨row, hx, _, _, _, hid, hhash, huser⟩
    · simpa only [exec, hx] using h
    · simp only [exec, hx]
      refine { h with tokens_id := ?_, tokens_hash := ?_, tokens_user := ?_ }
      · exact nodup_map_concat h.tokens_id hid
      · exact nodup_map_concat h.tokens_hash hhash
      · intro t ht
        rcases List.mem_append.mp ht with ht | ht
        · exact h.tokens_user t ht
        · rwa [List.mem_singleton.mp ht]
  | createUser arg =>
    rcases createUser_cases db defaults arg with
      ⟨hx, _⟩ | ⟨row, hx, _, hactive, hid, hemail⟩
    · simpa only [exec, hx] using h
    · have grow : ∀ {x}, db.hasUser x = true →
          hasUser { db with users := db.users ++ [row] } x = true := by
        intro x hx
        rw [hasUser, List.any_append, Bool.or_eq_true]
        exact Or.inl hx
      simp only [exec, hx]
      refine { h with users_id := ?_, users_email := ?_, users_event := ?_, events_user := ?_,
                      photos_user := ?_, tokens_user := ?_ }
      · exact nodup_map_concat h.users_id hid
      · exact nodup_map_concat h.users_email hemail
      · intro u hu id hactive'
        rcases List.mem_append.mp hu with hu | hu
        · exact h.users_event u hu id hactive'
        · rw [List.mem_singleton.mp hu, hactive] at hactive'
          simp at hactive'
      · intro e he
        obtain ⟨u, hu, hus⟩ := h.events_user e he
        exact ⟨u, hu, grow hus⟩
      · exact fun p hp => grow (h.photos_user p hp)
      · exact fun t ht => grow (h.tokens_user t ht)
  | revokeRefreshToken id =>
    refine mapTokens_valid h ?_ ?_ ?_ <;>
      · intro t
        split <;> rfl
  | revokeRefreshTokensForUser userID =>
    refine mapTokens_valid h ?_ ?_ ?_ <;>
      · intro t
        split <;> rfl
  | setActiveEvent id activeEventID => exact setActiveEvent_valid h id activeEventID
  | _ => exact h

end Database

end ItalyTrip
