import SecureChat.Redis
import SecureChat.Runs
/-!
# OtpService — the one-time codes that confirm an address

A code is issued and verified by one Redis script each, on the key of the address; a script runs alone.  The request of
a script or its answer may be lost.  Keyed hashes and the keys made of them are a parameter.
-/
namespace SecureChat
namespace OtpService

open Redis

abbrev Text := List Char

def otpTtlSeconds : ℕ := 600

def maxAttempts : ℕ := 5

def cooldownMillis : ℤ := 60000

structure Otp where
  hash : Text
  attempts : ℕ
  createdAt : ℤ
deriving DecidableEq

/-- `ServerPrivacy.blindIndex`, for the key of an address and for the value of a code. -/
structure BlindIndex (κ : Type) where
  otpKey : Text → κ
  hashOtp : Text → Text → Text

inductive Delivery where
  | answered
  | answerLost
  | requestLost
deriving DecidableEq

structure Store (κ : Type) where
  keys : κ → Option (Volatile Otp)
  nowMs : ℕ

variable {κ : Type} [DecidableEq κ]

def Store.empty : Store κ := ⟨fun _ => none, 0⟩

def Store.set (key : κ) (v : Option (Volatile Otp)) (s : Store κ) : Store κ :=
  { s with keys := Function.update s.keys key v }

/-- `CREATE_OTP_SCRIPT`: 1, or the rest of the cooldown with a minus sign. -/
def createOtpScript (key : κ) (hash : Text) (createdAt : ℤ) (s : Store κ) : ℤ × Store κ :=
  match s.keys key with
  | some otp =>
    if createdAt - otp.val.createdAt < cooldownMillis then
      (-(cooldownMillis - (createdAt - otp.val.createdAt)), s)
    else (1, s.set key (some ⟨⟨hash, 0, createdAt⟩, some (s.nowMs + otpTtlSeconds * 1000)⟩))
  | none => (1, s.set key (some ⟨⟨hash, 0, createdAt⟩, some (s.nowMs + otpTtlSeconds * 1000)⟩))

def equal (stored given : Text) : Bool :=
  decide (stored.length = given.length) && (List.range 64).all fun index => decide (stored[index]? = given[index]?)

/-- `VERIFY_OTP_SCRIPT`: 1 for a right code, 0 for a wrong one, -1 without a code or after too many attempts. -/
def verifyOtpScript (key : κ) (hash : Text) (s : Store κ) : ℤ × Store κ :=
  match s.keys key with
  | none => (-1, s)
  | some otp =>
    if maxAttempts ≤ otp.val.attempts then (-1, s.set key none)
    else if equal otp.val.hash hash then (1, s.set key none)
    else if maxAttempts ≤ otp.val.attempts + 1 then (0, s.set key none)
    else (0, s.set key (some { otp with val := { otp.val with attempts := otp.val.attempts + 1 } }))

/-- `[0-9]{6}` -/
def saneOtp (otp : Text) : Bool := decide (otp.length = 6) && otp.all fun c => decide ('0' ≤ c) && decide (c ≤ '9')

inductive Op where
  | generateOtp (email otp : Text) (createdAt : ℤ) (delivery : Delivery)
  | verifyOtp (email providedOtp : Text) (delivery : Delivery)
  | passes (t : ℕ)

section Calls

variable (B : BlindIndex κ)

/-- `generateOtp`; the answer is what the script returned, if the caller gets to see it. -/
def generateOtp (email otp : Text) (createdAt : ℤ) (delivery : Delivery) (s : Store κ) : Option ℤ × Store κ :=
  match delivery with
  | .answered =>
    (some (createOtpScript (B.otpKey email) (B.hashOtp otp email) createdAt s).1,
      (createOtpScript (B.otpKey email) (B.hashOtp otp email) createdAt s).2)
  | .answerLost => (none, (createOtpScript (B.otpKey email) (B.hashOtp otp email) createdAt s).2)
  | .requestLost => (none, s)

/-- `verifyOtp`; an error is a refusal. -/
def verifyOtp (email providedOtp : Text) (delivery : Delivery) (s : Store κ) : Bool × Store κ :=
  if saneOtp providedOtp then
    match delivery with
    | .answered =>
      (decide ((verifyOtpScript (B.otpKey email) (B.hashOtp providedOtp email) s).1 = 1),
        (verifyOtpScript (B.otpKey email) (B.hashOtp providedOtp email) s).2)
    | .answerLost => (false, (verifyOtpScript (B.otpKey email) (B.hashOtp providedOtp email) s).2)
    | .requestLost => (false, s)
  else (false, s)

def step (s : Store κ) : Op → Option (Store κ)
  | .generateOtp email otp createdAt delivery => some (generateOtp B email otp createdAt delivery s).2
  | .verifyOtp email providedOtp delivery => some (verifyOtp B email providedOtp delivery s).2
  | .passes t =>
    if t < s.nowMs then none else some ⟨fun key => Volatile.sweep t (s.keys key), t⟩

end Calls

end OtpService
end SecureChat
