import SecureChat.AsyncTasks
import SecureChat.GroupControl
/-!
# SessionStore — the session of every isolate, and its file

`PersistentSessionStore`, `refreshSessionTokens` and the logins and logouts of `AuthCoordinator`.  The foreground and
the background are isolates of their own: each opens the session file for itself, holds the session in memory, and
writes it as a whole, one write after the other.  Its refreshes take turns, and an owner file keeps them apart from the
refreshes of the other isolates, but only for a time: who has waited long enough goes on without it.

Left out: the profile and the settings, which are written beside the tokens; and the file lock, which lets every isolate
of the process pass.
-/
namespace SecureChat
namespace Session

open Async
open GroupControl (Text)
open Program (get modify whenever)

structure TokenPair where
  accessToken : Text
  refreshToken : Text
deriving DecidableEq

/-- What a token was issued for: the user, and the login that it goes back to. -/
structure Grant where
  userId : Text
  login : ℕ
deriving DecidableEq

structure Issuer where
  pair : Grant → ℕ → TokenPair
  grant : Text → Option Grant
  grant_accessToken : ∀ g n, grant (pair g n).accessToken = some g
  grant_refreshToken : ∀ g n, grant (pair g n).refreshToken = some g

structure SessionStore where
  userId : Option Text := none
  accessToken : Option Text := none
  refreshToken : Option Text := none
  credentialsExpired : Bool := false
deriving DecidableEq

namespace SessionStore

def tokens (s : SessionStore) : List Text := s.accessToken.toList ++ s.refreshToken.toList

def login (userId : Text) (pair : TokenPair) : SessionStore :=
  ⟨some userId, some pair.accessToken, some pair.refreshToken, false⟩

def expireCredentials (s : SessionStore) : SessionStore :=
  { s with accessToken := none, refreshToken := none, credentialsExpired := true }

def updateTokens (pair : TokenPair) (s : SessionStore) : SessionStore :=
  { s with accessToken := some pair.accessToken, refreshToken := some pair.refreshToken }

end SessionStore

/-- The store of an isolate; its two tails are counted, what is chained and what is done. -/
structure Isolate where
  session : SessionStore := {}
  closed : Bool := false
  writes : ℕ := 0
  written : ℕ := 0
  refreshes : ℕ := 0
  refreshed : ℕ := 0

/-- What a write is for; a logout comes with the logins begun before it, and those whose tokens it cleared. -/
inductive Purpose where
  | login (n : ℕ)
  | refresh (refreshToken : Text)
  | expiry
  | logout (before : ℕ) (held : List ℕ)
deriving DecidableEq

/-- The isolates that have opened the file, and the file.  The last three fields are history: how many logins have
begun, which have been in the file, and which of them the logouts of an isolate have ended. -/
structure Device where
  isolates : ℕ → Option Isolate := fun _ => none
  file : Option SessionStore := none
  locked : Bool := false
  logins : ℕ := 0
  stored : List ℕ := []
  ended : ℕ → List ℕ := fun _ => []

namespace Device

def session (d : Device) (i : ℕ) : SessionStore := ((d.isolates i).getD {}).session

def change (i : ℕ) (f : Isolate → Isolate) (d : Device) : Device :=
  { d with isolates := Function.update d.isolates i ((d.isolates i).map f) }

def setSession (i : ℕ) (session : SessionStore) : Device → Device := change i fun s => { s with session := session }

def opened (i : ℕ) (session : SessionStore) (d : Device) : Device :=
  if (d.isolates i).isSome then d
  else { d with isolates := Function.update d.isolates i (some { session := session }) }

def setLocked (locked : Bool) (d : Device) : Device := { d with locked := locked }

def beginLogin (d : Device) : Device := { d with logins := d.logins + 1 }

def setFile (session : SessionStore) (d : Device) : Device := { d with file := some session }

/-- The history of a write: a logout ends the logins before it that have been in the file, and those it cleared. -/
def record (i : ℕ) : Purpose → Device → Device
  | .login n, d => { d with stored := n :: d.stored, ended := fun j => (d.ended j).filter (· ≠ n) }
  | .logout before held, d =>
    { d with ended := Function.update d.ended i (d.stored.filter (· < before) ++ held ++ d.ended i) }
  | .refresh _, d => d
  | .expiry, d => d

def writeEnded (i : ℕ) : Device → Device := change i fun s => { s with written := s.written + 1 }

def written (i : ℕ) (session : SessionStore) (purpose : Purpose) (d : Device) : Device :=
  ((d.writeEnded i).setFile session).record i purpose

end Device

inductive Op where
  | read
  | opening (i : ℕ) (found : SessionStore)
  | decrypt (i : ℕ) (found : SessionStore)
  | write (i n : ℕ) (snapshot : SessionStore) (purpose : Purpose)
  | turn (i n : ℕ)
  | createOwner
  | deleteOwner
  | refresh (i : ℕ) (refreshToken : Text)
  | recoverySigningPublicKey
  | reauthenticateWithDevice (i : ℕ) (userId refreshToken : Text)
  | logout (accessToken refreshToken : Text)
  | disconnect
  | clearLocalCryptoState
deriving DecidableEq

/-- Whether the step got what it asked for; the number of a pair that the server issues; whether the owner file that
was found was a stale one. -/
structure Answer where
  yes : Bool := true
  serial : ℕ := 0
  stale : Bool := false

abbrev Call (α : Type) := Program Answer Op Device Unit α

def on (op : Op) : Call Answer := Program.wait () op

def fail {α : Type} : Call α := .throw ()

/-- Which steps can end how: turns and writes come one after the other, and only the turn and the owner file never
fail. -/
def ready : Op → Option Answer → Device → Bool
  | .turn i n, answer, d => answer.isSome && ((d.isolates i).getD {}).refreshed == n
  | .createOwner, answer, d => answer.any fun a => !a.yes || a.stale || !d.locked
  | .write i n _ _, _, d => ((d.isolates i).getD {}).written == n
  | _, _, _ => true

section Store

variable (i : ℕ)

def readFile : Call (Option SessionStore) := .await .read (fun _ d => d) (fun _ d => .pure d.file) fail

/-- `PersistentSessionStore.open`. -/
def openStore : Call Unit := do
  let file ← readFile
  match file with
  | none => modify (·.opened i {})
  | some found => do
    let _ ← on (.opening i found)
    modify (·.opened i found)

def reloadFromDisk : Call Unit := do
  let d ← get
  if ((d.isolates i).getD {}).closed then pure ()
  else do
    let file ← readFile
    match file with
    | none => pure ()
    | some found => do
      let _ ← on (.decrypt i found)
      modify (·.setSession i found)

/-- The session is taken now and written when the writes before it are done. -/
def persist (purpose : Purpose) : Call Unit := do
  let d ← get
  match d.isolates i with
  | none => fail
  | some store =>
    if store.closed then fail
    else do
      modify (·.change i fun s => { s with writes := s.writes + 1 })
      .await (.write i store.writes store.session purpose) (fun _ d => d.written i store.session purpose)
        (fun _ _ => .pure ()) (.sync (·.writeEnded i) fun _ => fail)

def close : Call Unit := modify (·.change i fun s => { s with closed := true })

/-- `loginAndPersist`; the login is the `n`-th. -/
def loginAndPersist (userId : Text) (pair : TokenPair) (n : ℕ) : Call Unit := do
  modify (·.setSession i (.login userId pair))
  persist i (.login n)

def updateTokensAndPersist (refreshToken : Text) (pair : TokenPair) : Call Unit := do
  modify fun d => d.setSession i ((d.session i).updateTokens pair)
  persist i (.refresh refreshToken)

def expireCredentialsAndPersist : Call Unit := do
  modify fun d => d.setSession i (d.session i).expireCredentials
  persist i .expiry

/-- The refreshes of an isolate take turns; the owner file is waited for, but not for ever. -/
def withRefreshLock {α : Type} (action : Call α) : Call α := do
  let d ← get
  modify (·.change i fun s => { s with refreshes := s.refreshes + 1 })
  let _ ← on (.turn i ((d.isolates i).getD {}).refreshes)
  let owner ← .await .createOwner (fun a d => if a.yes then d.setLocked true else d) (fun a _ => .pure a) fail
  let result ← action.attempt
  whenever owner.yes do
    let _ ← (.await .deleteOwner (fun _ d => d.setLocked false) (fun _ _ => .pure ()) fail : Call Unit).attempt
    pure ()
  modify (·.change i fun s => { s with refreshed := s.refreshed + 1 })
  match result with
  | .ok a => pure a
  | .error _ => fail

end Store

section Auth

variable (issuer : Issuer) (i : ℕ)

namespace SessionStore

def logins (s : SessionStore) : List ℕ := s.tokens.filterMap fun t => (issuer.grant t).map Grant.login

end SessionStore

def clearAndPersist : Call Unit := do
  let d ← get
  modify (·.setSession i {})
  persist i (.logout d.logins ((d.session i).logins issuer))

/-- The pair that the server issues for a refresh token, if it accepts it; its other refusals throw. -/
def issued (refreshToken : Text) (answer : Answer) : Option TokenPair :=
  if answer.yes then (issuer.grant refreshToken).map fun g => issuer.pair g answer.serial else none

/-- `AuthApi.refresh`; `none` is a 401. -/
def refresh (refreshToken : Text) : Call (Option TokenPair) := do
  let answer ← on (.refresh i refreshToken)
  pure (issued issuer refreshToken answer)

def reauthenticateWithDevice (deviceKey : Bool) (refreshToken : Text) : Call (Option TokenPair) := do
  let d ← get
  match (d.session i).userId with
  | none => pure none
  | some userId =>
    if ¬ deviceKey then pure none
    else do
      let key ← on .recoverySigningPublicKey
      if ¬ key.yes then pure none
      else do
        let answer ← on (.reauthenticateWithDevice i userId refreshToken)
        pure (issued issuer refreshToken answer)

def renew (deviceKey : Bool) (failed : Option Text) (session : SessionStore) : Call (Option Text) :=
  if session.accessToken.any (· ≠ []) ∧ session.accessToken ≠ failed then pure session.accessToken
  else
    match session.refreshToken.filter (· ≠ []) with
    | none => pure none
    | some refreshToken => do
      let pair ← refresh issuer i refreshToken
      match pair with
      | some pair => do
        updateTokensAndPersist i refreshToken pair
        pure (some pair.accessToken)
      | none => do
        let restored ← reauthenticateWithDevice issuer i deviceKey refreshToken
        match restored with
        | some pair => do
          updateTokensAndPersist i refreshToken pair
          pure (some pair.accessToken)
        | none => do
          expireCredentialsAndPersist i
          pure none

def refreshSessionTokens (deviceKey : Bool) : Call (Option Text) := do
  let d ← get
  withRefreshLock i do
    reloadFromDisk i
    let loaded ← get
    renew issuer i deviceKey (d.session i).accessToken (loaded.session i)

def clearLocalAuthentication : Call Unit := do
  let _ ← on .disconnect
  let result ← (on .clearLocalCryptoState).attempt
  clearAndPersist issuer i
  match result with
  | .ok _ => pure ()
  | .error _ => fail

/-- `AuthCoordinator.logout`: the server is told if there are tokens, and the rest is done whatever it says. -/
def logout : Call Unit := do
  let d ← get
  match (d.session i).accessToken, (d.session i).refreshToken with
  | some accessToken, some refreshToken => do
    let _ ← (on (.logout accessToken refreshToken)).attempt
    clearLocalAuthentication issuer i
  | _, _ => clearLocalAuthentication issuer i

def login (userId : Text) (serial : ℕ) : Call Unit := do
  let d ← get
  modify (·.beginLogin)
  loginAndPersist i userId (issuer.pair ⟨userId, d.logins⟩ serial) d.logins

end Auth

inductive Event where
  | openStore (i : ℕ)
  | login (i : ℕ) (userId : Text) (serial : ℕ)
  | refresh (i : ℕ) (deviceKey : Bool)
  | logout (i : ℕ)
  | clear (i : ℕ)
  | expire (i : ℕ)
  | reload (i : ℕ)
  | close (i : ℕ)

def program (issuer : Issuer) : Event → Call Unit
  | .openStore i => openStore i
  | .login i userId serial => login issuer i userId serial
  | .refresh i deviceKey => do
    let _ ← refreshSessionTokens issuer i deviceKey
    pure ()
  | .logout i => logout issuer i
  | .clear i => clearAndPersist issuer i
  | .expire i => expireCredentialsAndPersist i
  | .reload i => reloadFromDisk i
  | .close i => close i

def tasks (issuer : Issuer) : Tasks Answer Op Device Unit Event := ⟨program issuer, ready⟩

abbrev State := Tasks.State Answer Op Device Unit Event

end Session
end SecureChat
