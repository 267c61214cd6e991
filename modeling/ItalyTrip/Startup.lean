import ItalyTrip.Boot
import ItalyTrip.Cors
import ItalyTrip.GoTime
import ItalyTrip.Lifetimes

namespace ItalyTrip

namespace Strconv

/-- `ParseInt` with base 10 and 64 bits, which is `Atoi` too. -/
def parseInt (s : String) : Option Int64 :=
  let (negative, digits) := match s.toList with
    | '-' :: rest => (true, rest)
    | '+' :: rest => (false, rest)
    | digits => (false, digits)
  if digits ≠ [] ∧ digits.all Char.isDigit = true then
    let n : Int := if negative then -(GoTime.number digits : Int) else GoTime.number digits
    if -2 ^ 63 ≤ n ∧ n < 2 ^ 63 then some (Int64.ofInt n) else none
  else none

def parseBool (s : String) : Option Bool :=
  if s ∈ ["1", "t", "T", "TRUE", "true", "True"] then some true
  else if s ∈ ["0", "f", "F", "FALSE", "false", "False"] then some false
  else none

example : parseInt "-9223372036854775808" = some Int64.minValue := by decide +kernel

end Strconv

namespace Env

/-- The variables of the process, those of the file `.env` included. -/
abbrev Environment := String → Option String

def getEnv (env : Environment) (key defaultValue : String) : String := (env key).getD defaultValue

/-- `GetEnvInt` and `GetEnvInt64`. -/
def getEnvInt (env : Environment) (key : String) (defaultValue : Int64) : Int64 :=
  ((env key).bind Strconv.parseInt).getD defaultValue

def getEnvBool (env : Environment) (key : String) (defaultValue : Bool) : Bool :=
  ((env key).bind Strconv.parseBool).getD defaultValue

/-- The error is the message of `fatal`. -/
def mustGet (env : Environment) (key : String) : Except String String :=
  match env key with
  | some value =>
    if trimSpace value.toList = [] then .error ("required env variable " ++ key ++ " is not set") else .ok value
  | none => .error ("required env variable " ++ key ++ " is not set")

/-- The variable has a value that is not blank. -/
def IsSet (env : Environment) (key : String) : Prop :=
  ∃ value, env key = some value ∧ trimSpace value.toList ≠ []

theorem mustGet_cases (env : Environment) (key : String) :
    (∃ value, mustGet env key = .ok value ∧ env key = some value ∧ trimSpace value.toList ≠ []) ∨
      ¬ IsSet env key ∧ mustGet env key = .error ("required env variable " ++ key ++ " is not set") := by
  unfold mustGet IsSet
  cases henv : env key with
  | none => simp
  | some value =>
    by_cases blank : trimSpace value.toList = []
    · simp [blank]
    · simp [blank]

end Env

namespace Events

open Env

def seedUserFromEnv (env : Environment) : Except String SeedUser := do
  let email ← mustGet env "SEED_USER_EMAIL"
  let password ← mustGet env "SEED_USER_PASSWORD"
  return ⟨email, password⟩

end Events

namespace Startup

open Env

/-- What the process is started on: its packages, whether a connection string reaches the database, what the
environment of a boot chooses, whether the AWS configuration loads, how origins are parsed, and whether a TCP
address can be listened on. -/
structure Host where
  packages : Packages
  reaches : String → Bool
  choice : BootChoice
  awsConfig : Bool
  parseOrigin : String → Option (String × String)
  binds : String → Bool

/-- The server that listens. -/
structure Listening where
  port : String
  allowedOrigins : List String
  bucket : String
  usePathStyle : Bool
  app : Application

inductive Outcome where
  | fatal (message : String)
  | failed (cause : BootError)
  | noStorage (message : String)
  | unbound (addr : String)
  | listens (server : Listening)

def newS3FromEnv (host : Host) (bucket : String) : Except String Unit :=
  if bucket = "" then .error "bucket name is empty (set AWS_S3_BUCKET_NAME)"
  else if host.awsConfig then .ok () else .error "load aws config"

/-- `Application.Run`: a port that is no port, or is taken, fails `ListenAndServe`. -/
def listenAndServe (host : Host) (server : Listening) : Outcome :=
  let addr := ":" ++ server.port
  if host.binds addr then .listens server else .unbound addr

def defaultDSN : String :=
  "host=localhost user=postgres password=postgres dbname=italy-trip sslmode=disable"

/-- The rest of `run`, with the database ready. -/
def listen (env : Environment) (host : Host) (jwtSecret : String) : Outcome :=
  match mustGet env "AWS_S3_BUCKET_NAME" with
  | .error message => .fatal message
  | .ok bucket =>
    match newS3FromEnv host bucket with
    | .error message => .noStorage message
    | .ok () => listenAndServe host
        { port := getEnv env "PORT" "8080"
          allowedOrigins :=
            Middleware.parseOrigins host.parseOrigin (getEnv env "CORS_ORIGIN" "http://localhost:5173")
          bucket
          usePathStyle := getEnvBool env "AWS_S3_USE_PATH_STYLE" false
          app :=
            { host.packages with
              jwtSecret
              jwtTTL := (lifetime (getEnvInt env "JWT_TTL_HOURS" 24)).toInt
              refreshTokenTTL := (lifetime (getEnvInt env "REFRESH_TOKEN_TTL_HOURS" (24 * 30))).toInt
              maxUploadBytes := getEnvInt env "MAX_UPLOAD_BYTES" Photos.defaultMaxUploadBytes } }

/-- `run` up to the point where the server listens. -/
def run (env : Environment) (host : Host) (s : Store) : Outcome × Store :=
  match mustGet env "JWT_SECRET" with
  | .error message => (.fatal message, s)
  | .ok jwtSecret =>
    match Events.seedUserFromEnv env with
    | .error message => (.fatal message, s)
    | .ok seedUser =>
      if host.reaches (getEnv env "GOOSE_DBSTRING" defaultDSN) then
        match boot host.packages.quote seedUser host.choice s with
        | (.error cause, s') => (.failed cause, s')
        | (.ok (), s') => (listen env host jwtSecret, s')
      else (.failed (.database "" .failure), s)

variable {env : Environment} {host : Host} {s : Store} {quote : String → String}

/-- The migrations keep the addresses of the users. -/
theorem runMigrations_emails {seedEmail : String} (allowed : s.Allowed) (ready : SeedReady seedEmail s) :
    (runMigrations quote seedEmail s).2.db.users.map User.email = s.db.users.map User.email := by
  by_cases done : s.version = 6
  · rw [runMigrations_done done]
  · obtain ⟨u, hu, hemail⟩ := ready.resolve_left done
    have le : s.version ≤ 5 := by
      have := allowed.version
      omega
    obtain ⟨user, found⟩ : ∃ user, s.db.findUserByEmail seedEmail = some user :=
      Option.isSome_iff_exists.mp (List.find?_isSome.mpr ⟨u, hu, beq_iff_eq.mpr hemail⟩)
    rw [(runMigrations_sql allowed le).trans (backfill_found found)]
    exact setUsersActiveEvent_key (fun _ _ => rfl) _

theorem found_iff {db : Database} {email : String} :
    (db.findUserByEmail email).isSome = true ↔ email ∈ db.users.map User.email := by
  simp [Database.findUserByEmail, List.find?_isSome]

theorem seedReady_of_mem {seedEmail : String} (h : seedEmail ∈ s.db.users.map User.email) :
    SeedReady seedEmail s := by
  obtain ⟨u, hu, hemail⟩ := List.mem_map.mp h
  exact Or.inr ⟨u, hu, hemail⟩

/-- A boot ends well exactly where the seed user is there, or all migrations have been applied and the seed user
can be made. -/
theorem boot_ok_iff {seedUser : SeedUser} {o : BootChoice} (allowed : s.Allowed)
    (fresh : s.db.users.any (·.id == o.defaults.id) = false) :
    (boot quote seedUser o s).1 = .ok () ↔ seedUser.email ∈ s.db.users.map User.email ∨
      s.version = 6 ∧ (o.hashPassword seedUser.password).isSome = true := by
  by_cases ready : SeedReady seedUser.email s
  · have emails : (runMigrations quote seedUser.email s).2.db.users.map User.email = s.db.users.map User.email :=
      runMigrations_emails allowed ready
    obtain ⟨db, hrun, rows, ids⟩ := @runMigrations_ready quote _ _ allowed ready
    rw [hrun] at emails
    have seeded : (boot quote seedUser o s).1 = (seedSharedUser seedUser o db).1 := by rw [boot, hrun]
    rw [seeded, ← emails]
    by_cases there : seedUser.email ∈ db.users.map User.email
    · obtain ⟨user, found⟩ := Option.isSome_iff_exists.mp (found_iff.mpr there)
      simp [seedSharedUser, found, oneRow, there]
    · have done : s.version = 6 := by
        refine ready.resolve_right ?_
        rintro ⟨u, hu, hemail⟩
        exact there (emails ▸ List.mem_map.mpr ⟨u, hu, hemail⟩)
      have missing : db.findUserByEmail seedUser.email = none :=
        Option.not_isSome_iff_eq_none.mp (mt found_iff.mp there)
      cases hash : o.hashPassword seedUser.password with
      | none => simp [seedSharedUser, missing, oneRow, hash, there]
      | some passwordHash =>
        have fresh' : db.users.any (·.id == o.defaults.id) = false := by
          rw [← Bool.not_eq_true] at fresh ⊢
          exact fun h => fresh ((hasUser_of_ids ids _).symm.trans h)
        have hashed : (o.hashPassword seedUser.password).isSome = true := by simp [hash]
        obtain ⟨db', hseed, -⟩ := seedSharedUser_seeds rows.valid hashed fresh'
        rw [hseed]
        exact ⟨fun _ => Or.inr ⟨done, rfl⟩, fun _ => rfl⟩
  · rw [boot, runMigrations_unready allowed ready]
    refine ⟨fun h => (by cases h), fun h => absurd ?_ ready⟩
    exact h.elim seedReady_of_mem fun h => Or.inl h.1

theorem mustGet_ok_iff {key value : String} : mustGet env key = .ok value ↔
    env key = some value ∧ trimSpace value.toList ≠ [] := by
  unfold mustGet
  cases env key with
  | none => simp
  | some found =>
    by_cases blank : trimSpace found.toList = []
    · simp only [blank, ↓reduceIte, reduceCtorEq, Option.some.injEq, false_iff, not_and, not_not]
      rintro rfl
      exact blank
    · simp only [blank, ↓reduceIte, Except.ok.injEq, Option.some.injEq]
      refine ⟨fun same => ⟨same, same ▸ blank⟩, And.left⟩

theorem isSet_iff {key : String} : IsSet env key ↔ ∃ value, mustGet env key = .ok value := by
  simp only [mustGet_ok_iff, IsSet]

/-- Seeding that ends well leaves valid rows and the shared account. -/
theorem seedSharedUser_ok {seedUser : SeedUser} {o : BootChoice} {db : Database} (valid : db.Valid)
    (ok : (seedSharedUser seedUser o db).1 = .ok ()) :
    (seedSharedUser seedUser o db).2.Valid ∧
      ((seedSharedUser seedUser o db).2.findUserByEmail seedUser.email).isSome = true := by
  cases found : db.findUserByEmail seedUser.email with
  | some user => simp [seedSharedUser, found, oneRow, valid]
  | none =>
    cases hash : o.hashPassword seedUser.password with
    | none => simp [seedSharedUser, found, oneRow, hash] at ok
    | some passwordHash =>
      by_cases fresh : db.users.any (·.id == o.defaults.id) = false
      · have hashed : (o.hashPassword seedUser.password).isSome = true := by simp [hash]
        obtain ⟨db', hseed, valid', found'⟩ := seedSharedUser_seeds valid hashed fresh
        rw [hseed]
        exact ⟨valid', found'⟩
      · simp [seedSharedUser, found, oneRow, hash, Database.createUser, Bool.not_eq_false _ ▸ fresh] at ok

/-- A boot that ends well leaves all migrations applied and one shared account. -/
theorem boot_ok {seedUser : SeedUser} {o : BootChoice} {s' : Store} (allowed : s.Allowed)
    (ok : boot quote seedUser o s = (.ok (), s')) :
    s'.version = 6 ∧ s'.schema = schemaAt 6 ∧ s'.db.Valid ∧
      (s'.db.users.filter (·.email == seedUser.email)).length = 1 := by
  by_cases ready : SeedReady seedUser.email s
  · obtain ⟨db, hrun, rows, -⟩ := @runMigrations_ready quote _ _ allowed ready
    rw [boot, hrun] at ok
    obtain ⟨result, rfl⟩ := Prod.mk.inj ok
    obtain ⟨valid, found⟩ := seedSharedUser_ok rows.valid result
    exact ⟨rfl, rfl, valid, one_user valid found⟩
  · rw [boot, runMigrations_unready allowed ready] at ok
    cases ok

/-- What is done after the database is reached. -/
def proceed (env : Environment) (host : Host) (jwtSecret : String) (seedUser : SeedUser) (s : Store) :
    Outcome × Store :=
  match boot host.packages.quote seedUser host.choice s with
  | (.error cause, s') => (.failed cause, s')
  | (.ok (), s') => (listen env host jwtSecret, s')

/-- A start that lacks a secret or the seed user ends before the database is touched. -/
theorem run_cases (env : Environment) (host : Host) (s : Store) :
    (¬ (IsSet env "JWT_SECRET" ∧ IsSet env "SEED_USER_EMAIL" ∧ IsSet env "SEED_USER_PASSWORD") ∧
      ∃ message, run env host s = (.fatal message, s)) ∨
    ∃ jwtSecret email password, mustGet env "JWT_SECRET" = .ok jwtSecret ∧
      mustGet env "SEED_USER_EMAIL" = .ok email ∧ mustGet env "SEED_USER_PASSWORD" = .ok password ∧
      run env host s =
        if host.reaches (getEnv env "GOOSE_DBSTRING" defaultDSN) then
          proceed env host jwtSecret ⟨email, password⟩ s
        else (.failed (.database "" .failure), s) := by
  obtain ⟨jwtSecret, hsecret, -⟩ | ⟨unset, hsecret⟩ := mustGet_cases env "JWT_SECRET"
  · obtain ⟨email, hemail, -⟩ | ⟨unset, hemail⟩ := mustGet_cases env "SEED_USER_EMAIL"
    · obtain ⟨password, hpassword, -⟩ | ⟨unset, hpassword⟩ := mustGet_cases env "SEED_USER_PASSWORD"
      · have seed : Events.seedUserFromEnv env = .ok ⟨email, password⟩ := by
          rw [Events.seedUserFromEnv, hemail, hpassword]
          rfl
        refine Or.inr ⟨jwtSecret, email, password, hsecret, hemail, hpassword, ?_⟩
        simp only [run, hsecret, seed]
        rfl
      · have seed : ∃ message, Events.seedUserFromEnv env = .error message := by
          rw [Events.seedUserFromEnv, hemail, hpassword]
          exact ⟨_, rfl⟩
        obtain ⟨message, seed⟩ := seed
        exact Or.inl ⟨fun set => unset set.2.2, message, by simp only [run, hsecret, seed]⟩
    · have seed : ∃ message, Events.seedUserFromEnv env = .error message := by
        rw [Events.seedUserFromEnv, hemail]
        exact ⟨_, rfl⟩
      obtain ⟨message, seed⟩ := seed
      exact Or.inl ⟨fun set => unset set.2.1, message, by simp only [run, hsecret, seed]⟩
  · exact Or.inl ⟨fun set => unset set.1, _, by simp only [run, hsecret]; rfl⟩

theorem listenAndServe_cases (host : Host) (server : Listening) :
    (host.binds (":" ++ server.port) = true ∧ listenAndServe host server = .listens server) ∨
      host.binds (":" ++ server.port) = false ∧ listenAndServe host server = .unbound (":" ++ server.port) := by
  unfold listenAndServe
  cases binds : host.binds (":" ++ server.port) <;> simp [binds]

theorem listenAndServe_iff {server : Listening} :
    (∃ server', listenAndServe host server = .listens server') ↔ host.binds (":" ++ server.port) = true := by
  obtain ⟨binds, result⟩ | ⟨binds, result⟩ := listenAndServe_cases host server <;> simp [result, binds]

theorem listen_iff {jwtSecret : String} : (∃ server, listen env host jwtSecret = .listens server) ↔
    IsSet env "AWS_S3_BUCKET_NAME" ∧ host.awsConfig = true ∧
      host.binds (":" ++ getEnv env "PORT" "8080") = true := by
  obtain ⟨bucket, hbucket, found, filled⟩ | ⟨unset, hbucket⟩ := mustGet_cases env "AWS_S3_BUCKET_NAME"
  · have named : bucket ≠ "" := by
      rintro rfl
      exact filled rfl
    have set : IsSet env "AWS_S3_BUCKET_NAME" := ⟨bucket, found, filled⟩
    cases config : host.awsConfig with
    | false => simp [listen, hbucket, newS3FromEnv, named, config]
    | true => simp [listen, hbucket, newS3FromEnv, named, config, set, listenAndServe_iff]
  · simp [listen, hbucket, unset]

theorem listen_listens {jwtSecret : String} {server : Listening}
    (h : listen env host jwtSecret = .listens server) :
    server.app.jwtSecret = jwtSecret ∧ mustGet env "AWS_S3_BUCKET_NAME" = .ok server.bucket := by
  unfold listen at h
  split at h
  · cases h
  next bucket hbucket =>
    split at h
    · cases h
    · obtain ⟨-, result⟩ | ⟨-, result⟩ := listenAndServe_cases host _
      · cases result.symm.trans h
        exact ⟨rfl, hbucket⟩
      · cases result.symm.trans h

theorem listen_fatal {jwtSecret message : String} (h : listen env host jwtSecret = .fatal message) :
    message = "required env variable AWS_S3_BUCKET_NAME is not set" := by
  obtain ⟨bucket, hbucket, -⟩ | ⟨-, hbucket⟩ := mustGet_cases env "AWS_S3_BUCKET_NAME"
  · simp only [listen, hbucket] at h
    split at h
    · cases h
    · obtain ⟨-, result⟩ | ⟨-, result⟩ := listenAndServe_cases host _ <;> cases result.symm.trans h
  · simp only [listen, hbucket] at h
    cases h
    rfl

/-- The server listens exactly where its four required variables are set and not blank, the database is
reached, the AWS configuration loads, its port can be listened on, and the boot has a seed user or can make
one. -/
theorem listens_iff (allowed : s.Allowed) (fresh : s.db.users.any (·.id == host.choice.defaults.id) = false) :
    (∃ server, (run env host s).1 = .listens server) ↔
      (IsSet env "JWT_SECRET" ∧ IsSet env "AWS_S3_BUCKET_NAME") ∧ host.awsConfig = true ∧
      host.binds (":" ++ getEnv env "PORT" "8080") = true ∧
      host.reaches (getEnv env "GOOSE_DBSTRING" defaultDSN) = true ∧
      ∃ email password, mustGet env "SEED_USER_EMAIL" = .ok email ∧
        mustGet env "SEED_USER_PASSWORD" = .ok password ∧
        (email ∈ s.db.users.map User.email ∨
          s.version = 6 ∧ (host.choice.hashPassword password).isSome = true) := by
  obtain ⟨unset, message, result⟩ | ⟨jwtSecret, email, password, hsecret, hemail, hpassword, result⟩ :=
    run_cases env host s
  · simp only [result, reduceCtorEq, exists_false, false_iff]
    rintro ⟨⟨secret, -⟩, -, -, -, email, password, hemail, hpassword, -⟩
    exact unset ⟨secret, isSet_iff.mpr ⟨email, hemail⟩, isSet_iff.mpr ⟨password, hpassword⟩⟩
  · have secret : IsSet env "JWT_SECRET" := isSet_iff.mpr ⟨jwtSecret, hsecret⟩
    have booted := @boot_ok_iff _ host.packages.quote ⟨email, password⟩ _ allowed fresh
    have found : (∃ email' password', mustGet env "SEED_USER_EMAIL" = .ok email' ∧
        mustGet env "SEED_USER_PASSWORD" = .ok password' ∧ (email' ∈ s.db.users.map User.email ∨
          s.version = 6 ∧ (host.choice.hashPassword password').isSome = true)) ↔
        (boot host.packages.quote ⟨email, password⟩ host.choice s).1 = .ok () := by
      rw [booted, hemail, hpassword]
      simp
    rw [result, found]
    by_cases reached : host.reaches (getEnv env "GOOSE_DBSTRING" defaultDSN) = true
    · rw [if_pos reached, proceed]
      obtain ⟨outcome, s'⟩ := boot host.packages.quote ⟨email, password⟩ host.choice s
      cases outcome with
      | error cause => simp
      | ok =>
        change (∃ server, listen env host jwtSecret = .listens server) ↔ _
        rw [listen_iff]
        simp [secret, reached]
    · rw [if_neg reached]
      simp [reached]

/-- Whatever the environment, a server that listens has a secret and a bucket that are not blank, and a
database with all migrations, valid rows and exactly one shared account. A start that ends with a fatal message
has touched nothing, unless the bucket is all it lacked. -/
theorem startup_sound (env : Environment) (host : Host) (allowed : s.Allowed) :
    (∀ server, (run env host s).1 = .listens server →
      trimSpace server.app.jwtSecret.toList ≠ [] ∧ trimSpace server.bucket.toList ≠ [] ∧
      (run env host s).2.version = 6 ∧ (run env host s).2.schema = schemaAt 6 ∧ (run env host s).2.db.Valid ∧
      ∃ email, env "SEED_USER_EMAIL" = some email ∧
        ((run env host s).2.db.users.filter (·.email == email)).length = 1) ∧
    ∀ message, (run env host s).1 = .fatal message → (run env host s).2 = s ∨
      (∀ key ∈ ["JWT_SECRET", "SEED_USER_EMAIL", "SEED_USER_PASSWORD"], IsSet env key) ∧
        message = "required env variable AWS_S3_BUCKET_NAME is not set" := by
  obtain ⟨-, message, result⟩ | ⟨jwtSecret, email, password, hsecret, hemail, hpassword, result⟩ :=
    run_cases env host s
  · rw [result]
    exact ⟨fun _ h => (by cases h), fun _ _ => Or.inl rfl⟩
  · have required : ∀ key ∈ ["JWT_SECRET", "SEED_USER_EMAIL", "SEED_USER_PASSWORD"], IsSet env key := by
      simp only [List.forall_mem_cons, List.not_mem_nil, false_implies, implies_true, and_true, isSet_iff]
      exact ⟨⟨_, hsecret⟩, ⟨_, hemail⟩, ⟨_, hpassword⟩⟩
    rw [result]
    by_cases reached : host.reaches (getEnv env "GOOSE_DBSTRING" defaultDSN) = true
    · rw [if_pos reached, proceed]
      split
      next cause s' _ => exact ⟨fun _ h => (by cases h), fun _ h => (by cases h)⟩
      next s' ok =>
        obtain ⟨version, schema, valid, one⟩ := boot_ok allowed ok
        refine ⟨fun server h => ?_, fun message h => Or.inr ⟨required, listen_fatal h⟩⟩
        obtain ⟨secret, bucket⟩ := listen_listens h
        rw [secret]
        exact ⟨(mustGet_ok_iff.mp hsecret).2, (mustGet_ok_iff.mp bucket).2, version, schema, valid, email,
          (mustGet_ok_iff.mp hemail).1, one⟩
    · rw [if_neg reached]
      exact ⟨fun _ h => (by cases h), fun _ h => (by cases h)⟩

private def sampleEnvironment : Environment := fun key =>
  [("JWT_SECRET", "secret"), ("SEED_USER_EMAIL", "us@example.com"), ("SEED_USER_PASSWORD", "change-me"),
    ("AWS_S3_BUCKET_NAME", "italy"), ("JWT_TTL_HOURS", "1o")].lookup key

private def sampleHost : Host :=
  ⟨sampleApp.toPackages, fun _ => true, sampleBoot, true, fun _ => none, fun addr => addr = ":8080"⟩

theorem listens_iff_development :
    ∃ server, (run sampleEnvironment sampleHost developmentStore).1 = .listens server :=
  (listens_iff developmentStore_allowed (by decide +kernel)).mpr
    ⟨⟨⟨_, rfl, by decide⟩, ⟨_, rfl, by decide⟩⟩, rfl, by decide, rfl, "us@example.com", "change-me",
      by decide +kernel, by decide +kernel, Or.inl (by decide +kernel)⟩

theorem startup_sound_development : (run sampleEnvironment sampleHost developmentStore).2.version = 6 := by
  obtain ⟨server, listens⟩ : ∃ server,
      (run sampleEnvironment sampleHost developmentStore).1 = .listens server := ⟨_, rfl⟩
  exact ((startup_sound sampleEnvironment sampleHost developmentStore_allowed).1 server listens).2.2.1

end Startup

end ItalyTrip
