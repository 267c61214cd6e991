import ItalyTrip.Migrations

namespace ItalyTrip

/-- The schema that the first `n` migrations leave. -/
def schemaAt (n : Nat) : Schema :=
  ⟨1 ≤ n, 2 ≤ n, 2 ≤ n, 4 ≤ n, n = 2, 5 ≤ n, 5 ≤ n, 6 ≤ n⟩

/-- Rows that the tables, columns and constraints of the schema allow. -/
structure Schema.Allows (schema : Schema) (db : Database) : Prop where
  users_table : schema.users = false → db.users = []
  events_table : schema.events = false → db.events = []
  photos_table : schema.photos = false → db.photos = []
  tokens_table : schema.refreshTokens = false → db.refreshTokens = []
  users_id : (db.users.map User.id).Nodup
  users_email : (db.users.map User.email).Nodup
  users_event : ∀ u ∈ db.users, ∀ id, u.activeEventID = some id →
    schema.usersActiveEventID = true ∧ db.hasEvent id = true
  events_id : (db.events.map Event.id).Nodup
  events_single : schema.eventsSingletonIdx = true → db.events.length ≤ 1
  events_user : ∀ e ∈ db.events, ∀ id, e.userID = some id →
    schema.eventsUserID = true ∧ db.hasUser id = true
  events_owned : schema.eventsUserIDNotNull = true → ∀ e ∈ db.events, e.userID ≠ none
  photos_id : (db.photos.map Photo.id).Nodup
  photos_client : (db.photos.map fun p => (p.eventID, p.clientID)).Nodup
  photos_event : ∀ p ∈ db.photos, db.hasEvent p.eventID = true
  photos_user : ∀ p ∈ db.photos, db.hasUser p.uploadedBy = true
  tokens_id : (db.refreshTokens.map RefreshToken.id).Nodup
  tokens_hash : (db.refreshTokens.map RefreshToken.tokenHash).Nodup
  tokens_user : ∀ t ∈ db.refreshTokens, db.hasUser t.userID = true

/-- A database the program can be started on: some first migrations applied, any rows they allow. -/
structure Store.Allowed (s : Store) : Prop where
  version : s.version ≤ 6
  schema : s.schema = schemaAt s.version
  rows : s.schema.Allows s.db

/-- After the last migration the rows are those of the server's database. -/
theorem Schema.Allows.valid {db : Database} (h : (schemaAt 6).Allows db) : db.Valid where
  users_id := h.users_id
  users_email := h.users_email
  users_event u hu id hid := (h.users_event u hu id hid).2
  events_id := h.events_id
  events_user e he := by
    obtain ⟨id, hid⟩ := Option.ne_none_iff_exists'.mp (h.events_owned rfl e he)
    exact ⟨id, hid, (h.events_user e he id hid).2⟩
  photos_id := h.photos_id
  photos_client := h.photos_client
  photos_event := h.photos_event
  photos_user := h.photos_user
  tokens_id := h.tokens_id
  tokens_hash := h.tokens_hash
  tokens_user := h.tokens_user

variable {quote : String → String} {seedEmail : String}

theorem runMigrations_done {s : Store} (h : s.version = 6) :
    runMigrations quote seedEmail s = (.ok (), s) := by
  simp [runMigrations, Migrations.all, Migrations.up, h]

/-- The SQL migrations never fail and touch no row. -/
theorem runMigrations_sql {s : Store} (allowed : s.Allowed) (h : s.version ≤ 5) :
    runMigrations quote seedEmail s =
      Migrations.up [(6, Migrations.upBackfillEventUserLinks quote seedEmail)] ⟨5, schemaAt 5, s.db⟩ := by
  obtain ⟨n, schema, db⟩ := s
  obtain rfl : schema = schemaAt n := allowed.schema
  have single : n ≤ 1 → db.events.length ≤ 1 := by
    intro hn
    have empty : db.events = [] := allowed.rows.events_table (by simp [schemaAt]; omega)
    simp [empty]
  have levels : n = 0 ∨ n = 1 ∨ n = 2 ∨ n = 3 ∨ n = 4 ∨ n = 5 := by
    dsimp only at h
    omega
  rcases levels with rfl | rfl | rfl | rfl | rfl | rfl
  all_goals
    simp [runMigrations, Migrations.all, Migrations.up, Migrations.createUsers,
      Migrations.createEventAndPhotos, Migrations.dropEventsSingleton,
      Migrations.createRefreshTokens, Migrations.linkEventsToUsers, orFail, schemaAt, bind,
      Except.bind, pure, Except.pure, single]

theorem owned_all {db : Database} {id : UUID} :
    (Migrations.ownEvents db id).events.all (·.userID.isSome) = true := by
  simp only [Migrations.ownEvents, List.all_map, List.all_eq_true, Function.comp]
  intro e _
  split
  next => rfl
  next h => exact Option.isSome_iff_ne_none.mpr h

theorem backfill_found {db : Database} {user : User} (found : db.findUserByEmail seedEmail = some user) :
    Migrations.up [(6, Migrations.upBackfillEventUserLinks quote seedEmail)] ⟨5, schemaAt 5, db⟩ =
      (.ok (), ⟨6, schemaAt 6, Migrations.setUsersActiveEvent (Migrations.ownEvents db user.id)⟩) := by
  have has : db.hasUser user.id = true :=
    Database.hasUser_iff.mpr ⟨user, List.mem_of_find?_eq_some found, rfl⟩
  simp [Migrations.up, Migrations.upBackfillEventUserLinks, Migrations.wrapped, found, oneRow,
    Migrations.setEventsUser, has, owned_all, bind, Except.bind, pure, Except.pure, Except.mapError,
    schemaAt]

/-- Without the seed user the backfill stops, and the migrations with it. -/
theorem backfill_missing {db : Database} (missing : db.findUserByEmail seedEmail = none) :
    Migrations.up [(6, Migrations.upBackfillEventUserLinks quote seedEmail)] ⟨5, schemaAt 5, db⟩ =
      (.error (.database ("look up seed user " ++ quote seedEmail) .noRows), ⟨5, schemaAt 5, db⟩) := by
  simp [Migrations.up, Migrations.upBackfillEventUserLinks, Migrations.wrapped, missing, oneRow,
    bind, Except.bind, Except.mapError]

theorem map_key {α κ : Type} {f : α → α} {key : α → κ} (h : ∀ a, key (f a) = key a) (xs : List α) :
    (xs.map f).map key = xs.map key := by
  rw [List.map_map]
  exact List.map_congr_left fun a _ => h a

theorem ownEvents_ids (db : Database) (id : UUID) :
    (Migrations.ownEvents db id).events.map Event.id = db.events.map Event.id :=
  map_key (fun e => by split <;> rfl) db.events

theorem setUsersActiveEvent_key {κ : Type} {key : User → κ}
    (h : ∀ u a, key { u with activeEventID := a } = key u) (db : Database) :
    (Migrations.setUsersActiveEvent db).users.map key = db.users.map key := by
  refine map_key (fun u => ?_) db.users
  split
  · exact h u _
  · rfl

theorem hasUser_of_ids {db db' : Database} (h : db'.users.map User.id = db.users.map User.id)
    (id : UUID) : db'.hasUser id = db.hasUser id := by
  have any : ∀ db : Database, db.hasUser id = (db.users.map User.id).any (· == id) := by
    simp [Database.hasUser, List.any_map, Function.comp_def]
  rw [any, any, h]

theorem hasEvent_of_ids {db db' : Database} (h : db'.events.map Event.id = db.events.map Event.id)
    (id : UUID) : db'.hasEvent id = db.hasEvent id := by
  have any : ∀ db : Database, db.hasEvent id = (db.events.map Event.id).any (· == id) := by
    simp [Database.hasEvent, List.any_map, Function.comp_def]
  rw [any, any, h]

/-- The backfill gives every event an owner and keeps every constraint. -/
theorem backfill_allows {db : Database} {user : User} (h : (schemaAt 5).Allows db)
    (found : db.findUserByEmail seedEmail = some user) :
    (schemaAt 6).Allows (Migrations.setUsersActiveEvent (Migrations.ownEvents db user.id)) := by
  have has : db.hasUser user.id = true :=
    Database.hasUser_iff.mpr ⟨user, List.mem_of_find?_eq_some found, rfl⟩
  have userIDs := setUsersActiveEvent_key (fun _ _ => rfl : ∀ u a, User.id { u with activeEventID := a } =
    User.id u) (Migrations.ownEvents db user.id)
  have eventIDs := ownEvents_ids db user.id
  have users : ∀ id, (Migrations.setUsersActiveEvent (Migrations.ownEvents db user.id)).hasUser id =
      db.hasUser id := hasUser_of_ids userIDs
  have events : ∀ id, (Migrations.setUsersActiveEvent (Migrations.ownEvents db user.id)).hasEvent id =
      db.hasEvent id := hasEvent_of_ids eventIDs
  refine { h with
    users_table := nofun, events_table := nofun, photos_table := nofun, tokens_table := nofun
    users_id := ?_, users_email := ?_, users_event := ?_, events_id := ?_, events_single := nofun
    events_user := ?_, events_owned := ?_, photos_event := ?_, photos_user := ?_, tokens_user := ?_ }
  · exact userIDs ▸ h.users_id
  · rw [setUsersActiveEvent_key fun _ _ => rfl]
    exact h.users_email
  · intro u hu id hid
    refine ⟨rfl, ?_⟩
    obtain ⟨old, ho, rfl⟩ := List.mem_map.mp hu
    split at hid
    next =>
      obtain ⟨e, he, rfl⟩ := Option.map_eq_some_iff.mp hid
      exact Database.hasEvent_iff.mpr ⟨e, List.argmax_mem he, rfl⟩
    next => exact (events id).trans (h.users_event old ho id hid).2
  · exact eventIDs ▸ h.events_id
  · intro e he id hid
    refine ⟨rfl, (users id).trans ?_⟩
    obtain ⟨old, ho, rfl⟩ := List.mem_map.mp he
    split at hid
    next => exact Option.some.inj hid ▸ has
    next => exact (h.events_user old ho id hid).2
  · intro _ e he
    obtain ⟨old, ho, rfl⟩ := List.mem_map.mp he
    split
    next => exact Option.some_ne_none _
    next hne => exact hne
  · exact fun p hp => (events _).trans (h.photos_event p hp)
  · exact fun p hp => (users _).trans (h.photos_user p hp)
  · exact fun t ht => (users _).trans (h.tokens_user t ht)

theorem Store.Allowed.atFive {s : Store} (h : s.Allowed) : (schemaAt 5).Allows s.db :=
  { h.rows with
    users_table := nofun, events_table := nofun, photos_table := nofun, tokens_table := nofun
    users_event := fun u hu id hid => ⟨rfl, (h.rows.users_event u hu id hid).2⟩
    events_single := nofun
    events_user := fun e he id hid => ⟨rfl, (h.rows.events_user e he id hid).2⟩
    events_owned := nofun }

/-- The seed user is there, or no migration asks for it any more. -/
def SeedReady (seedEmail : String) (s : Store) : Prop :=
  s.version = 6 ∨ ∃ u ∈ s.db.users, u.email = seedEmail

/-- With the seed user there the migrations end without an error and keep the users. -/
theorem runMigrations_ready {s : Store} (allowed : s.Allowed) (ready : SeedReady seedEmail s) :
    ∃ db, runMigrations quote seedEmail s = (.ok (), ⟨6, schemaAt 6, db⟩) ∧ (schemaAt 6).Allows db ∧
      db.users.map User.id = s.db.users.map User.id := by
  by_cases done : s.version = 6
  · have schema := allowed.schema
    rw [done] at schema
    have rows := allowed.rows
    rw [schema] at rows
    refine ⟨s.db, ?_, rows, rfl⟩
    rw [runMigrations_done done]
    obtain ⟨n, σ, db⟩ := s
    rw [show n = 6 from done, show σ = schemaAt 6 from schema]
  · obtain ⟨u, hu, hemail⟩ := ready.resolve_left done
    have le : s.version ≤ 5 := by
      have := allowed.version
      omega
    obtain ⟨user, found⟩ : ∃ user, s.db.findUserByEmail seedEmail = some user :=
      Option.isSome_iff_exists.mp (List.find?_isSome.mpr ⟨u, hu, beq_iff_eq.mpr hemail⟩)
    refine ⟨_, (runMigrations_sql allowed le).trans (backfill_found found),
      backfill_allows allowed.atFive found, setUsersActiveEvent_key (fun _ _ => rfl) _⟩

/-- Without the seed user the migrations end at the backfill. -/
theorem runMigrations_unready {s : Store} (allowed : s.Allowed) (unready : ¬ SeedReady seedEmail s) :
    runMigrations quote seedEmail s =
      (.error (.database ("look up seed user " ++ quote seedEmail) .noRows), ⟨5, schemaAt 5, s.db⟩) := by
  have le : s.version ≤ 5 := by
    have := allowed.version
    have : s.version ≠ 6 := fun h => unready (Or.inl h)
    omega
  refine (runMigrations_sql allowed le).trans (backfill_missing ?_)
  refine List.find?_eq_none.mpr fun u hu hemail => unready (Or.inr ⟨u, hu, ?_⟩)
  exact beq_iff_eq.mp hemail

/-- Seeding leaves the rows valid and exactly one user with the seed email. -/
theorem seedSharedUser_seeds {db : Database} {seedUser : SeedUser} {o : BootChoice}
    (valid : db.Valid) (hash : (o.hashPassword seedUser.password).isSome = true)
    (fresh : db.users.any (·.id == o.defaults.id) = false) :
    ∃ db', seedSharedUser seedUser o db = (.ok (), db') ∧ db'.Valid ∧
      (db'.findUserByEmail seedUser.email).isSome = true := by
  cases found : db.findUserByEmail seedUser.email with
  | some user => exact ⟨db, by simp [seedSharedUser, found, oneRow], valid, by simp [found]⟩
  | none =>
    obtain ⟨passwordHash, hhash⟩ := Option.isSome_iff_exists.mp hash
    have valid' : (db.exec o.defaults 0 (.createUser ⟨seedUser.email, passwordHash⟩)).2.Valid :=
      Database.exec_valid valid _
    have unused : db.users.any (·.email == seedUser.email) = false := by
      simpa [Database.findUserByEmail, List.find?_eq_none] using found
    refine ⟨_, ?_, valid', ?_⟩
    · simp [seedSharedUser, found, oneRow, hhash, Database.exec, Database.createUser, fresh, unused]
    · simp [Database.exec, Database.createUser, fresh, unused, Database.findUserByEmail]

/-- One boot completes and leaves every migration applied, every event owned and one shared account;
any number of further boots change nothing. -/
structure CleanBoot (quote : String → String) (seedUser : SeedUser) (o : BootChoice) (s : Store) :
    Prop where
  completes : (boot quote seedUser o s).1 = .ok ()
  migrated : (boot quote seedUser o s).2.version = 6 ∧ (boot quote seedUser o s).2.schema = schemaAt 6
  owned : ∀ e ∈ (boot quote seedUser o s).2.db.events,
    ∃ id, e.userID = some id ∧ (boot quote seedUser o s).2.db.hasUser id = true
  shared : ((boot quote seedUser o s).2.db.users.filter (·.email == seedUser.email)).length = 1
  settled : ∀ later : List BootChoice,
    later.foldl (fun r o => boot quote seedUser o r.2) (boot quote seedUser o s) = boot quote seedUser o s

theorem one_user {db : Database} (valid : db.Valid) {email : String}
    (found : (db.findUserByEmail email).isSome = true) :
    (db.users.filter (·.email == email)).length = 1 := by
  obtain ⟨user, hmem, hemail⟩ := List.find?_isSome.mp found
  have hcount : (db.users.map User.email).count email = 1 :=
    List.count_eq_one_of_mem valid.users_email
      (List.mem_map.mpr ⟨user, hmem, beq_iff_eq.mp hemail⟩)
  rw [List.count, List.countP_map] at hcount
  rw [← List.countP_eq_length_filter]
  exact hcount

/-- A boot on a database that has been booted before. -/
theorem boot_again {seedUser : SeedUser} (o : BootChoice) {s : Store} (done : s.version = 6)
    (found : (s.db.findUserByEmail seedUser.email).isSome = true) :
    boot quote seedUser o s = (.ok (), s) := by
  obtain ⟨user, found⟩ := Option.isSome_iff_exists.mp found
  simp [boot, runMigrations_done done, seedSharedUser, found, oneRow]

/-- The boot sequence succeeds exactly where the backfill finds the user that seeding would create
after it. -/
theorem boot_clean_iff {seedUser : SeedUser} {o : BootChoice} {s : Store} (allowed : s.Allowed)
    (hash : (o.hashPassword seedUser.password).isSome = true)
    (fresh : s.db.users.any (·.id == o.defaults.id) = false) :
    CleanBoot quote seedUser o s ↔ s.version = 6 ∨ ∃ u ∈ s.db.users, u.email = seedUser.email := by
  constructor
  · intro clean
    by_contra unready
    have := clean.completes
    rw [boot, runMigrations_unready allowed unready] at this
    cases this
  · intro ready
    obtain ⟨db, hrun, rows, ids⟩ := runMigrations_ready allowed ready
    have fresh' : db.users.any (·.id == o.defaults.id) = false := by
      rw [← Bool.not_eq_true] at fresh ⊢
      exact fun h => fresh ((hasUser_of_ids ids _).symm.trans h)
    obtain ⟨db', hseed, valid, found⟩ := seedSharedUser_seeds rows.valid hash fresh'
    have result : boot quote seedUser o s = (.ok (), ⟨6, schemaAt 6, db'⟩) := by
      rw [boot, hrun]
      simp only [hseed]
    have again : ∀ later : List BootChoice, later.foldl (fun r o => boot quote seedUser o r.2)
        (boot quote seedUser o s) = boot quote seedUser o s := by
      intro later
      rw [result]
      induction later with
      | nil => rfl
      | cons o' later ih =>
        rw [List.foldl_cons, boot_again o' rfl found]
        exact ih
    refine ⟨by rw [result], by rw [result]; exact ⟨rfl, rfl⟩, ?_, ?_, again⟩
    · rw [result]
      exact valid.events_user
    · rw [result]
      exact one_user valid found

def sampleSeed : SeedUser := ⟨"us@example.com", "change-me-please"⟩

def sampleBoot : BootChoice :=
  ⟨⟨5, 0⟩, fun password => if password.utf8ByteSize ≤ 72 then some ("#" ++ password) else none⟩

/-- A new database: no migration applied, no rows. -/
def emptyStore : Store := ⟨0, schemaAt 0, ⟨[], [], [], []⟩⟩

theorem emptyStore_allowed : emptyStore.Allowed where
  version := by decide
  schema := rfl
  rows := by constructor <;> simp [emptyStore, schemaAt]

theorem empty_boot_fails : emptyStore.Allowed ∧
    (sampleBoot.hashPassword sampleSeed.password).isSome = true ∧
    ¬ CleanBoot id sampleSeed sampleBoot emptyStore := by
  refine ⟨emptyStore_allowed, by decide +kernel, fun clean => ?_⟩
  have failed : (boot id sampleSeed sampleBoot emptyStore).1 ≠ .ok () := by decide +kernel
  exact failed clean.completes

/-- The development database: the singleton event and the account that made it. -/
def developmentStore : Store :=
  ⟨2, schemaAt 2, ⟨[⟨1, "us@example.com", "#secret", none⟩], [⟨7, "Italy Trip", 0, 60, 0, none⟩], [], []⟩⟩

theorem developmentStore_allowed : developmentStore.Allowed where
  version := by decide
  schema := rfl
  rows := by constructor <;> simp [developmentStore, schemaAt]

theorem development_boot :
    (CleanBoot id sampleSeed sampleBoot developmentStore ↔ developmentStore.version = 6 ∨
      ∃ u ∈ developmentStore.db.users, u.email = sampleSeed.email) ∧
      ∃ u ∈ developmentStore.db.users, u.email = sampleSeed.email :=
  ⟨boot_clean_iff developmentStore_allowed (by decide +kernel) (by decide +kernel), by decide +kernel⟩

end ItalyTrip
