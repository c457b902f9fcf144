import Mathlib
import SecureChat.Redis
import SecureChat.Runs
import SecureChat.SlidingWindow
/-!
# RateLimiter — costs admitted within a sliding window

Each pair of endpoint and identifier has a sorted set of its own in Redis, whose members are texts that begin with what
they cost and whose scores are the times of the requests.  The script runs at the time that the request read; it evicts,
sums up and adds in one step.  The link to Redis may fail before the script or after it, and the request is then
refused.
-/
namespace SecureChat
namespace RateLimiter

open Redis Runs

abbrev Text := List Char

structure RateLimit where
  maxRequests : ℕ
  windowSeconds : ℕ

def LIMITS : List (String × RateLimit) :=
  [("recovery_request", ⟨5, 600⟩), ("recovery_verify", ⟨20, 600⟩), ("recovery_complete", ⟨20, 600⟩),
    ("directory_evaluate", ⟨32, 86400⟩), ("directory_snapshot", ⟨12, 3600⟩), ("directory_self_update", ⟨4, 86400⟩),
    ("users_register", ⟨5, 3600⟩), ("auth_refresh", ⟨30, 600⟩), ("auth_device_reauth", ⟨10, 600⟩),
    ("ice_config", ⟨30, 3600⟩), ("prekey_fetch", ⟨120, 3600⟩), ("prekey_capability", ⟨240, 3600⟩),
    ("prekey_write", ⟨30, 3600⟩), ("ws_message", ⟨1000, 20⟩), ("ws_connect", ⟨10, 1⟩), ("otp_request", ⟨5, 600⟩),
    ("otp_verify", ⟨20, 600⟩), ("presence_subscribe", ⟨120, 60⟩), ("attachment_upload", ⟨200, 3600⟩),
    ("attachment_upload_bytes", ⟨1610612736, 86400⟩), ("attachment_download", ⟨2000, 3600⟩),
    ("abuse_report", ⟨20, 86400⟩)]

/-! ## The script -/

section Script

variable {κ : Type} [LinearOrder κ]

def zscore (c : Coll κ ℤ) (m : κ) : Option ℤ := c.lookup m

/-- `ZREMRANGEBYSCORE key -inf max`. -/
def zremrangeByScore (max : ℤ) (c : Coll κ ℤ) : Coll κ ℤ := (c.zrangeByScore max).foldl (fun c m => c.del m) c

/-- `ZRANGEBYSCORE key min +inf`. -/
def zrangeFrom (min : ℤ) (c : Coll κ ℤ) : List κ := (c.sorted.filter fun e => decide (min ≤ e.2)).map Sigma.fst

/-- The cost of the entries; `none` is an error of the script. -/
def used (costOf : κ → Option ℕ) : List κ → Option ℕ
  | [] => some 0
  | entry :: rest => (costOf entry).bind fun cost => (used costOf rest).map fun n => cost + n

/-- `ZADD` and `EXPIRE`. -/
def zadd (entry : κ) (now ttlSeconds : ℕ) (c : Coll κ ℤ) : Coll κ ℤ :=
  (c.put entry (now : ℤ)).expire (now + ttlSeconds * 1000)

/-- `SLIDING_WINDOW_SCRIPT`, at `now`. -/
def slidingWindow (costOf : κ → Option ℕ) (windowStart : ℤ) (maxCost now ttlSeconds cost : ℕ) (entry : κ)
    (c : Coll κ ℤ) : Option Bool × Coll κ ℤ :=
  let c := zremrangeByScore windowStart c
  match used costOf (zrangeFrom windowStart c) with
  | none => (none, c)
  | some n =>
    if maxCost < n + cost then (some false, c)
    else (some true, zadd entry now ttlSeconds c)

end Script

/-- `"$cost:$now:$suffix"` -/
def member (cost now : ℕ) (suffix : Text) : Text :=
  Nat.toDigits 10 cost ++ ':' :: (Nat.toDigits 10 now ++ ':' :: suffix)

/-- `tonumber`, of decimal digits: nothing else is ever written. -/
def tonumber (t : Text) : Option ℕ :=
  if t ≠ [] ∧ t.all Char.isDigit = true then some (Nat.ofDigitChars 10 t 0) else none

/-- What an entry adds to `used`: nothing without a separator. -/
def costOf (entry : Text) : Option ℕ :=
  if ':' ∈ entry then tonumber (entry.takeWhile fun c => decide (c ≠ ':')) else some 0

/-! ## Requests -/

/-- The link to Redis answers, or fails before the script has run or after it. -/
inductive Link where
  | answers
  | failsBefore
  | failsAfter
deriving DecidableEq

structure Request where
  endpoint : String
  identifier : String
  cost : ℕ
  now : ℕ
  link : Link
deriving DecidableEq

structure Admitted where
  index : ℕ
  request : Request

/-- `log` is what the script has admitted for each key, newest first, and `answered` what each request was told. -/
structure State where
  now : ℕ
  count : ℕ
  keys : String × String → Coll Text ℤ
  log : String × String → List Admitted
  answered : List (Request × Bool)

def State.init : State := ⟨0, 0, fun _ => Coll.empty, fun _ => [], []⟩

def Request.key (r : Request) : String × String := (r.endpoint, r.identifier)

/-- What a request finds under its key, and what the script answers and leaves there. -/
def evaluate (limit : RateLimit) (suffix : Text) (r : Request) (c : Coll Text ℤ) : Option Bool × Coll Text ℤ :=
  slidingWindow costOf ((r.now : ℤ) - limit.windowSeconds * 1000) limit.maxRequests r.now
    (limit.windowSeconds + 1) r.cost
    (member r.cost r.now suffix) (c.sweep r.now)

def limitOf (endpoint : String) : Option RateLimit := LIMITS.lookup endpoint

/-- `consume`, with the random suffixes of the requests. -/
def consume (suffix : ℕ → Text) (r : Request) (s : State) : Bool × State :=
  match limitOf r.endpoint with
  | none => (true, s)
  | some limit =>
    match r.link with
    | .failsBefore => (false, s)
    | _ =>
      let x := evaluate limit (suffix s.count) r (s.keys r.key)
      let s := { s with
        keys := Function.update s.keys r.key x.2
        log := if x.1 = some true then Function.update s.log r.key (⟨s.count, r⟩ :: s.log r.key)
          else s.log }
      (decide (r.link = .answers ∧ x.1 = some true), s)

/-- Requests come at times that never fall. -/
def step (suffix : ℕ → Text) (s : State) (r : Request) : Option State :=
  if r.now < s.now then none
  else
    let x := consume suffix r s
    some { x.2 with
      now := r.now
      count := s.count + 1
      answered := (r, x.1) :: s.answered }

end RateLimiter
end SecureChat
