import ItalyTrip.Server
import Mathlib.Data.Nat.Digits.Defs

namespace ItalyTrip

open Calls

structure Bitmap where
  width : Int
  height : Int
  pixels : Bytes

inductive JWTError where
  | tokenExpired
  | other

/-- Packages the server imports and the decoders of Go's library. -/
structure Packages where
  parseUUID : String → Except String UUID
  parseRFC3339 : String → Except String Instant
  detectContentType : Bytes → String
  decodeConfig : Bytes → Except String (Int × Int)
  decode : Bytes → Except String Bitmap
  catmullRom : Bitmap → Int → Int → Bitmap
  encode : Bitmap → Nat → Except String Bytes
  parseWithClaims : String → String → Instant → Except JWTError (String × Bool)
  signedString : String → String → Instant → Instant → Except String String
  compareHashAndPassword : String → String → Bool
  hashRefreshToken : String → String
  quote : String → String

structure Application extends Packages where
  jwtSecret : String
  jwtTTL : Int
  refreshTokenTTL : Int
  maxUploadBytes : Int64

private def hexDigits (width n : Nat) : List Char :=
  let digits := Nat.toDigits 16 n
  List.replicate (width - digits.length) '0' ++ digits

def uuidString (id : UUID) : String :=
  let digits := hexDigits 32 id.toNat
  String.ofList (digits.take 8 ++ '-' :: (digits.drop 8).take 4 ++ '-' :: (digits.drop 12).take 4 ++
    '-' :: (digits.drop 16).take 4 ++ '-' :: digits.drop 20)

private theorem hexDigits_succ {width : Nat} (hw : 0 < width) (n : Nat) :
    hexDigits (width + 1) n = hexDigits width (n / 16) ++ [(n % 16).digitChar] := by
  unfold hexDigits
  rw [Nat.toDigits_eq_if (b := 16) (by decide)]
  split
  next lt =>
    obtain ⟨k, rfl⟩ := Nat.exists_eq_add_of_lt hw
    simp [Nat.div_eq_of_lt lt, Nat.mod_eq_of_lt lt, ← List.replicate_succ']
  next ge => simp [Nat.add_sub_add_right]

private theorem digitChar_inj {a b : Nat} (ha : a < 16) (hb : b < 16)
    (h : a.digitChar = b.digitChar) : a = b := by
  have all : ∀ a < 16, ∀ b < 16, Nat.digitChar a = Nat.digitChar b → a = b := by decide
  exact all a ha b hb h

private theorem hexDigits_inj {width : Nat} (hw : 0 < width) {a b : Nat} (ha : a < 16 ^ width)
    (hb : b < 16 ^ width) (h : hexDigits width a = hexDigits width b) : a = b := by
  induction width, hw using Nat.le_induction generalizing a b with
  | base =>
    simp only [Nat.pow_one] at ha hb
    refine digitChar_inj ha hb ?_
    simpa [hexDigits, Nat.toDigits_of_lt_base ha, Nat.toDigits_of_lt_base hb] using h
  | succ width hw ih =>
    rw [hexDigits_succ hw, hexDigits_succ hw] at h
    obtain ⟨high, low⟩ := List.append_inj' h rfl
    have quotient := ih (by omega) (by omega) high
    have remainder := digitChar_inj (Nat.mod_lt a (by decide)) (Nat.mod_lt b (by decide))
      (List.singleton_inj.mp low)
    omega

private theorem hexDigits_length {n : Nat} (hn : n < 16 ^ 32) : (hexDigits 32 n).length = 32 := by
  have := Nat.toDigits_length 16 n 32 (by decide) hn
  simp only [hexDigits, List.length_append, List.length_replicate]
  omega

/-- The text of a UUID tells which it is. -/
theorem uuidString_inj {a b : UUID} (h : uuidString a = uuidString b) : a = b := by
  have la := hexDigits_length (n := a.toNat) (by have := a.isLt; omega)
  have lb := hexDigits_length (n := b.toNat) (by have := b.isLt; omega)
  refine BitVec.eq_of_toNat_eq (hexDigits_inj (show 0 < 32 by decide) ?_ ?_ ?_)
  · have := a.isLt; omega
  · have := b.isLt; omega
  · have h := String.ofList_injective h
    generalize hexDigits 32 a.toNat = x, hexDigits 32 b.toNat = y at *
    simp only [List.append_assoc, List.cons_append] at h
    obtain ⟨h₁, h⟩ := List.append_inj h (by simp [la, lb])
    obtain ⟨h₂, h⟩ := List.append_inj (List.cons.inj h).2 (by simp [la, lb])
    obtain ⟨h₃, h⟩ := List.append_inj (List.cons.inj h).2 (by simp [la, lb])
    obtain ⟨h₄, h⟩ := List.append_inj (List.cons.inj h).2 (by simp [la, lb])
    have h₅ := (List.cons.inj h).2
    rw [← List.take_append_drop 8 x, ← List.take_append_drop 8 y, h₁,
      ← List.take_append_drop 4 (x.drop 8), ← List.take_append_drop 4 (y.drop 8), h₂]
    simp only [List.drop_drop]
    rw [← List.take_append_drop 4 (x.drop 12), ← List.take_append_drop 4 (y.drop 12), h₃]
    simp only [List.drop_drop]
    rw [← List.take_append_drop 4 (x.drop 16), ← List.take_append_drop 4 (y.drop 16), h₄]
    simp only [List.drop_drop, h₅]

structure EventResponse where
  id : String
  name : String
  startsAt : Instant
  endsAt : Instant
  isOver : Bool
  photoCount : Nat
  deriving DecidableEq, Repr

structure UploadResponse where
  id : String
  clientID : String
  duplicate : Bool
  deriving DecidableEq, Repr

structure PhotoResponse where
  id : String
  takenAt : Instant
  width : Int
  height : Int
  url : SignedURL
  thumbURL : SignedURL
  deriving DecidableEq, Repr

structure UserResponse where
  id : String
  email : String
  deriving DecidableEq, Repr

inductive Body where
  | empty
  | error (message : String) (code : Option String)
  | event (response : EventResponse)
  | upload (response : UploadResponse)
  | album (photos : List PhotoResponse)
  | attachment (disposition contentType : String) (contentLength : Int) (body : Bytes)
  | zip (disposition : String) (entries : List (String × Bytes))
  | auth (token : String) (user : UserResponse)
  | user (response : UserResponse)
  deriving DecidableEq, Repr

structure SetCookie where
  value : String
  maxAge : Int
  deriving DecidableEq, Repr

structure Response where
  status : Nat
  body : Body
  cookie : Option SetCookie
  deriving DecidableEq, Repr

def writeErrorFromString (status : Nat) (message : String) : Response :=
  ⟨status, .error message none, none⟩

def writeErrorWithCode (status : Nat) (message code : String) : Response :=
  ⟨status, .error message (some code), none⟩

/-- `time.Time` marshals only in the years 0 to 9999. -/
def jsonTime (t : Instant) : Bool :=
  decide (-62167219200000000000 ≤ t) && decide (t < 253402300800000000000)

def writeJSON (status : Nat) (times : List Instant) (body : Body) : Response :=
  if times.all jsonTime then ⟨status, body, none⟩ else ⟨500, .empty, none⟩

/-- A handler ends early with the response it has written. -/
abbrev Handler := ExceptT Response (Prog Call Reply)

abbrev call (c : Call) : Handler (Reply c) := request c

end ItalyTrip
