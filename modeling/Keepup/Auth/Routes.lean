import Keepup.Auth.Login

/-!
The pages on the account, in front of the login and behind it: the first run,
the lost password, and the account page. Each handler is given the session of
the request and leaves one for the response.
-/

namespace Keepup.Routes

open Lib Login

section Middleware

def publicPaths : List String :=
  ["/", "/login", "/logout", "/setup", "/forgot-password", "/forgot-password/reset",
    "/api/csp-report"]

def isPublic (path : String) : Bool := publicPaths.contains path || Text.startsWith path "/setup/"

inductive Gate where
  | passed
  | redirected (location : String) (session : Session)
deriving DecidableEq

def authMiddleware (s : Installation) (path : String) (session : Session) : Gate :=
  if isPublic path then .passed
  else if s.adminExists = false then .redirected "/setup" session
  else if session.authenticated = false then .redirected ("/login?next=" ++ path) session
  else if session.sessionVersion ≠ some s.getSessionVersion
    then .redirected ("/login?next=" ++ path) {}
  else .passed

/-- The session opens the pages that are not public. -/
def Accepted (s : Installation) (session : Session) : Prop :=
  ∃ path, isPublic path = false ∧ authMiddleware s path session = .passed

theorem passed_iff {s : Installation} {path : String} {session : Session}
    (h : isPublic path = false) :
    authMiddleware s path session = .passed ↔
      s.adminExists = true ∧ session.authenticated = true ∧
        session.sessionVersion = some s.getSessionVersion := by
  rw [authMiddleware, if_neg (by simp [h])]
  split
  · simp_all
  · split
    · simp_all
    · split <;> simp_all

theorem accepted_iff (s : Installation) (session : Session) : Accepted s session ↔
    s.adminExists = true ∧ session.authenticated = true ∧
      session.sessionVersion = some s.getSessionVersion := by
  constructor
  · rintro ⟨path, hpath, hpassed⟩
    exact (passed_iff hpath).mp hpassed
  · intro h
    have hpath : isPublic "/home" = false := by decide
    exact ⟨"/home", hpath, (passed_iff hpath).mpr h⟩

end Middleware

/-- What the client sees: a page with its errors, a new backup key, a redirect,
or the error page of an exception. -/
inductive Response where
  | page (errors : List String)
  | newKey (key : String)
  | redirect (location : String)
  | raised
deriving DecidableEq

/-- What a request did to the account. -/
inductive Event where
  | loggedIn
  | passwordChanged
  | passwordReset
  | keyProven
  | keyRegenerated
  | mfaEnrolled
  | setupMfaEnrolled
  | mfaRemoved
  | created
  | wiped
deriving DecidableEq

/-- The event is not a part of what the handlers return. -/
structure Result where
  installation : Installation
  session : Session
  response : Response
  event : Option Event := none

section Handlers

variable (p : Primitives) (s : Installation) (session : Session)

/-- What is wrong with a new password, in the words of the page. -/
def passwordErrors (one many newPassword confirm : String) : List String :=
  (if newPassword.length < minPasswordLen then [one ++ " must be at least 12 characters."]
    else []) ++
    if newPassword ≠ confirm then [many ++ " do not match."] else []

def usernameChar (c : Char) : Bool := c.isAlphanum || c == '_' || c == '-'

def usernameErrors (username : String) : List String :=
  if username.length < 2 then ["Username must be at least 2 characters."]
  else if username.toList.all usernameChar = false then
    ["Username may only contain letters, numbers, hyphens, and underscores."]
  else []

/-- A handler that writes the new state of the account, or fails with it. -/
def finish (written : Option Installation) (after : Session) (response : Response) (event : Event) :
    Result :=
  match written with
  | none => ⟨s, session, .raised, none⟩
  | some t => ⟨t, after, response, some event⟩

def setupAccountSubmit (salt backupKey username password passwordConfirm : String) : Result :=
  if s.adminExists then ⟨s, session, .redirect "/login", none⟩
  else
    let username := Text.strip username
    let errors := usernameErrors username ++
      passwordErrors "Password" "Passwords" password passwordConfirm
    if errors ≠ [] then ⟨s, session, .page errors, none⟩
    else finish s session (s.createAdmin p salt backupKey username password none)
      { session with setupAccountDone := true, setupBackupKey := some backupKey }
      (.redirect "/setup/security") .created

def setupSecurity (secret : String) : Result :=
  if session.setupAccountDone = false then ⟨s, session, .redirect "/login", none⟩
  else ⟨s, { session with setupTotpSecret := some secret }, .page [], none⟩

def setupSecuritySubmit (now : ℚ) (newSecret enableMfa totpCode : String) : Result :=
  if session.setupAccountDone = false then ⟨s, session, .redirect "/login", none⟩
  else if enableMfa = "on" then
    let secret := session.setupTotpSecret.getD ""
    if secret = "" ∨ p.verifyTotp now secret (Text.strip totpCode) = false then
      ⟨s, { session with setupTotpSecret := some (if secret ≠ "" then secret else newSecret) },
        .page [
          "Authenticator code is incorrect. Make sure your phone's time is synced and try again."],
        none⟩
    else ⟨s.enrollMfa secret, { session with setupTotpSecret := none },
      .redirect "/setup/recovery-code", some .setupMfaEnrolled⟩
  else ⟨s, session, .redirect "/setup/recovery-code", none⟩

def setupRecoveryCodeConfirm : Result :=
  ⟨s, { session with setupBackupKey := none, setupAccountDone := false },
    .redirect "/setup/connect", none⟩

def logout : Result := ⟨s, {}, .redirect "/login", none⟩

def forgotPasswordSubmit (backupKey : String) : Result :=
  if s.verifyBackupKey p backupKey = false
    then ⟨s, session, .page ["That backup key is not correct."], none⟩
  else ⟨s, { session with recoveryVerified := true }, .page [], some .keyProven⟩

def forgotPasswordReset (salt newPassword newPasswordConfirm : String) : Result :=
  if session.recoveryVerified = false then ⟨s, session, .redirect "/forgot-password", none⟩
  else
    let errors := passwordErrors "Password" "Passwords" newPassword newPasswordConfirm
    if errors ≠ [] then ⟨s, session, .page errors, none⟩
    else finish s session (s.changePassword p salt newPassword)
      { session with recoveryVerified := false, showPasswordNotice := false }
        (.page []) .passwordReset

def adminChangePassword (salt currentPassword newPassword newPasswordConfirm : String) : Result :=
  let errors :=
    (if s.verifyPassword p currentPassword = false then ["Current password is incorrect."]
      else []) ++
      passwordErrors "New password" "New passwords" newPassword newPasswordConfirm
  if errors ≠ [] then ⟨s, session, .page errors, none⟩
  else finish s session (s.changePassword p salt newPassword)
    { session with showPasswordNotice := false } (.page []) .passwordChanged

def adminMfaSetupPage (secret : String) : Result :=
  ⟨s, { session with mfaSetupSecret := some secret }, .page [], none⟩

def adminMfaSetupSubmit (now : ℚ) (totpCode : String) : Result :=
  let secret := session.mfaSetupSecret.getD ""
  if secret = "" ∨ p.verifyTotp now secret (Text.strip totpCode) = false then
    ⟨s, session,
      .page ["Code is incorrect — make sure your phone's time is synced and try again."], none⟩
  else ⟨s.enrollMfa secret, { session with mfaSetupSecret := none }, .page [], some .mfaEnrolled⟩

def adminMfaRemove (now : ℚ) (currentPassword totpCode : String) : Result :=
  if s.verifyPassword p currentPassword = false ∨ s.verifyTotp p now totpCode = false then
    ⟨s, session, .page ["Password or code incorrect."], none⟩
  else ⟨s.removeMfa, session, .page [], some .mfaRemoved⟩

def adminRegenerateBackupKey (backupKey currentPassword : String) : Result :=
  if s.verifyPassword p currentPassword = false then
    ⟨s, session, .page ["Current password is incorrect."], none⟩
  else ⟨s.regenerateBackupKey p backupKey, session, .newKey backupKey, some .keyRegenerated⟩

def adminFactoryReset (currentPassword confirmText : String) : Result :=
  if s.verifyPassword p currentPassword = false
    then ⟨s, session, .page ["Password is incorrect."], none⟩
  else if p.upper (Text.strip confirmText) ≠ "RESET" then
    ⟨s, session, .page ["Type \"RESET\" in the confirmation field."], none⟩
  else ⟨s.factoryReset, {}, .redirect "/setup", some .wiped⟩

end Handlers

/-- A request to one of the pages, with what the server draws for it. -/
inductive Request where
  | login (r : LoginRequest)
  | logout
  | setupAccount (salt backupKey username password passwordConfirm : String)
  | setupSecurity (secret : String)
  | setupSecuritySubmit (now : ℚ) (newSecret enableMfa totpCode : String)
  | setupRecoveryCodeConfirm
  | forgotPassword (backupKey : String)
  | forgotPasswordReset (salt newPassword newPasswordConfirm : String)
  | changePassword (salt currentPassword newPassword newPasswordConfirm : String)
  | mfaSetupPage (secret : String)
  | mfaSetupSubmit (now : ℚ) (totpCode : String)
  | mfaRemove (now : ℚ) (currentPassword totpCode : String)
  | regenerateBackupKey (backupKey currentPassword : String)
  | factoryReset (currentPassword confirmText : String)

def Request.path : Request → String
  | .login _ => "/login"
  | .logout => "/logout"
  | .setupAccount .. => "/setup/account"
  | .setupSecurity _ => "/setup/security"
  | .setupSecuritySubmit .. => "/setup/security"
  | .setupRecoveryCodeConfirm => "/setup/recovery-code/confirm"
  | .forgotPassword _ => "/forgot-password"
  | .forgotPasswordReset .. => "/forgot-password/reset"
  | .changePassword .. => "/admin/account/password"
  | .mfaSetupPage _ => "/admin/account/mfa/setup"
  | .mfaSetupSubmit .. => "/admin/account/mfa/setup"
  | .mfaRemove .. => "/admin/account/mfa/remove"
  | .regenerateBackupKey .. => "/admin/account/backup-key"
  | .factoryReset .. => "/admin/account/factory-reset"

section Serve

variable (p : Primitives)

/-- The handler of a request other than the login. -/
def handle (s : Installation) (session : Session) : Request → Result
  | .login _ => ⟨s, session, .page [], none⟩
  | .logout => Routes.logout s
  | .setupAccount salt key username password confirm =>
      setupAccountSubmit p s session salt key username password confirm
  | .setupSecurity secret => Routes.setupSecurity s session secret
  | .setupSecuritySubmit now newSecret enableMfa code =>
      Routes.setupSecuritySubmit p s session now newSecret enableMfa code
  | .setupRecoveryCodeConfirm => Routes.setupRecoveryCodeConfirm s session
  | .forgotPassword key => forgotPasswordSubmit p s session key
  | .forgotPasswordReset salt password confirm =>
      Routes.forgotPasswordReset p s session salt password confirm
  | .changePassword salt current password confirm =>
      adminChangePassword p s session salt current password confirm
  | .mfaSetupPage secret => adminMfaSetupPage s session secret
  | .mfaSetupSubmit now code => adminMfaSetupSubmit p s session now code
  | .mfaRemove now current code => adminMfaRemove p s session now current code
  | .regenerateBackupKey key current => adminRegenerateBackupKey p s session key current
  | .factoryReset current confirm => adminFactoryReset p s session current confirm

def loginResponse : LoginAnswer → Response
  | .refused page => .page [page.error]
  | .failed page => .page [page.error]
  | .succeeded => .redirect "/home"

def loginResult (session : Session) (result : LoginResult) : Result :=
  ⟨result.server.installation, result.session.getD session, loginResponse result.answer,
    if result.answer = .succeeded then some .loggedIn else none⟩

/-- A request as it passes the middleware and its handler. -/
def serve (server : Server) (session : Session) (request : Request) : Server × Result :=
  let s := server.installation
  match authMiddleware s request.path session with
  | .redirected location session => (server, ⟨s, session, .redirect location, none⟩)
  | .passed =>
      match request with
      | .login r =>
          let result := loginSubmit p server r
          (result.server, loginResult session result)
      | request =>
          let result := handle p s session request
          ({ server with installation := result.installation }, result)

end Serve

/-- What becomes of the session number and of the account. -/
def Effect (s t : Installation) : Option Event → Prop
  | some .passwordChanged => t.getSessionVersion = s.getSessionVersion + 1 ∧ t.adminExists = true
  | some .passwordReset => t.getSessionVersion = s.getSessionVersion + 1 ∧ t.adminExists = true
  | some .mfaEnrolled => t.getSessionVersion = s.getSessionVersion + 1 ∧
  t.adminExists = s.adminExists
  | some .setupMfaEnrolled => t.getSessionVersion = s.getSessionVersion + 1 ∧
  t.adminExists = s.adminExists
  | some .mfaRemoved => t.getSessionVersion = s.getSessionVersion + 1 ∧
  t.adminExists = s.adminExists
  | some .created =>
      s.adminExists = false ∧ t.getSessionVersion = s.getSessionVersion ∧ t.adminExists = true
  | some .wiped => t.getSessionVersion = 0 ∧ t.adminExists = false
  | _ => t.getSessionVersion = s.getSessionVersion ∧ t.adminExists = s.adminExists

/-- Everything that the properties below need to know of a request. -/
structure Serves (p : Primitives) (s : Installation) (session : Session) (request : Request)
    (result : Result) : Prop where
  account : Effect s result.installation result.event
  recovery : result.session.recoveryVerified = true →
    session.recoveryVerified = true ∨ result.event = some .keyProven
  setup : result.session.setupAccountDone = true →
    session.setupAccountDone = true ∨ result.event = some .created
  login : result.event = some .loggedIn → s.adminExists = true ∧
    result.session.authenticated = true ∧ result.session.sessionVersion = some s.getSessionVersion
  reset : result.event = some .passwordReset → session.recoveryVerified = true ∧
    ∃ salt password confirm, request = .forgotPasswordReset salt password confirm ∧
      passwordErrors "Password" "Passwords" password confirm = []
  enrolled : result.event = some .setupMfaEnrolled → session.setupAccountDone = true ∧
    ∃ now newSecret code, request = .setupSecuritySubmit now newSecret "on" code ∧
      p.verifyTotp now (session.setupTotpSecret.getD "") (Text.strip code) = true

section Spec

variable {p : Primitives} {s : Installation} {session after : Session} {request : Request}
  {response : Response}

/-- Nothing happens to the account, and no flag is set. -/
theorem Serves.quiet (hrecovery : after.recoveryVerified = true → session.recoveryVerified = true)
    (hsetup : after.setupAccountDone = true → session.setupAccountDone = true) :
    Serves p s session request ⟨s, after, response, none⟩ where
  account := ⟨rfl, rfl⟩
  recovery h := .inl (hrecovery h)
  setup h := .inl (hsetup h)
  login := nofun
  reset := nofun
  enrolled := nofun

/-- Something happens that neither sets a flag nor needs one. -/
theorem Serves.plain {t : Installation} {event : Event} (haccount : Effect s t (some event))
    (hrecovery : after.recoveryVerified = true → session.recoveryVerified = true)
    (hsetup : after.setupAccountDone = true → session.setupAccountDone = true)
    (hevent : event ≠ .loggedIn ∧ event ≠ .passwordReset ∧ event ≠ .setupMfaEnrolled) :
    Serves p s session request ⟨t, after, response, some event⟩ where
  account := haccount
  recovery h := .inl (hrecovery h)
  setup h := .inl (hsetup h)
  login h := absurd (Option.some.inj h) hevent.1
  reset h := absurd (Option.some.inj h) hevent.2.1
  enrolled h := absurd (Option.some.inj h) hevent.2.2

theorem setupAccountSubmit_serves {salt key username password confirm : String} :
    Serves p s session request
      (setupAccountSubmit p s session salt key username password confirm) := by
  simp only [setupAccountSubmit]
  split
  · exact .quiet id id
  · rename_i hfree
    split
    · exact .quiet id id
    · cases hwritten : s.createAdmin p salt key (Text.strip username) password none with
      | none => exact .quiet id id
      | some t =>
          obtain ⟨hversion, hexists⟩ := Installation.createAdmin_spec hwritten
          exact {
            account := ⟨by simpa using hfree, hversion, hexists⟩
            recovery := .inl
            setup := fun _ => .inr rfl
            login := nofun
            reset := nofun
            enrolled := nofun }

theorem setupSecuritySubmit_serves {now : ℚ} {newSecret enableMfa code : String} :
    Serves p s session (.setupSecuritySubmit now newSecret enableMfa code)
      (setupSecuritySubmit p s session now newSecret enableMfa code) := by
  simp only [setupSecuritySubmit]
  split
  · exact .quiet id id
  · rename_i hdone
    split
    · rename_i hon
      subst hon
      split
      · exact .quiet id id
      · rename_i hcode
        rw [not_or] at hcode
        exact {
          account := Installation.enrollMfa_spec s _
          recovery := .inl
          setup := .inl
          login := nofun
          reset := nofun
          enrolled := fun _ => ⟨by simpa using hdone, _, _, _, rfl, by simpa using hcode.2⟩ }
    · exact .quiet id id

theorem forgotPasswordReset_serves {salt password confirm : String} :
    Serves p s session (.forgotPasswordReset salt password confirm)
      (forgotPasswordReset p s session salt password confirm) := by
  simp only [forgotPasswordReset]
  split
  · exact .quiet id id
  · rename_i hverified
    split
    · exact .quiet id id
    · rename_i hvalid
      cases hwritten : s.changePassword p salt password with
      | none => exact .quiet id id
      | some t =>
          exact {
            account := Installation.changePassword_spec hwritten
            recovery := nofun
            setup := .inl
            login := nofun
            reset := fun _ => ⟨by simpa using hverified, _, _, _, rfl, not_not.mp hvalid⟩
            enrolled := nofun }

theorem adminChangePassword_serves {salt current password confirm : String} :
    Serves p s session request (adminChangePassword p s session salt current password confirm) := by
  unfold adminChangePassword
  extract_lets errors
  split
  · exact .quiet id id
  · cases hwritten : s.changePassword p salt password with
    | none => exact .quiet id id
    | some t => exact .plain (Installation.changePassword_spec hwritten) id id (by decide)

/-- What a handler other than the login does. -/
theorem handle_serves (p : Primitives) (s : Installation) (session : Session) (request : Request) :
    Serves p s session request (handle p s session request) := by
  cases request with
  | login r => exact .quiet id id
  | logout => exact .quiet nofun nofun
  | setupAccount salt key username password confirm => exact setupAccountSubmit_serves
  | setupSecurity secret =>
      simp only [handle, setupSecurity]
      split
      all_goals exact .quiet id id
  | setupSecuritySubmit now newSecret enableMfa code => exact setupSecuritySubmit_serves
  | setupRecoveryCodeConfirm => exact .quiet id nofun
  | forgotPassword key =>
      simp only [handle, forgotPasswordSubmit]
      split
      · exact .quiet id id
      · exact {
          account := ⟨rfl, rfl⟩
          recovery := fun _ => .inr rfl
          setup := .inl
          login := nofun
          reset := nofun
          enrolled := nofun }
  | forgotPasswordReset salt password confirm => exact forgotPasswordReset_serves
  | changePassword salt current password confirm => exact adminChangePassword_serves
  | mfaSetupPage secret => exact .quiet id id
  | mfaSetupSubmit now code =>
      simp only [handle, adminMfaSetupSubmit]
      split
      · exact .quiet id id
      · exact .plain (Installation.enrollMfa_spec s _) id id (by decide)
  | mfaRemove now current code =>
      simp only [handle, adminMfaRemove]
      split
      · exact .quiet id id
      · exact .plain (Installation.removeMfa_spec s) id id (by decide)
  | regenerateBackupKey key current =>
      simp only [handle, adminRegenerateBackupKey]
      split
      · exact .quiet id id
      · exact .plain (Installation.regenerateBackupKey_spec s key) id id (by decide)
  | factoryReset current confirm =>
      simp only [handle, adminFactoryReset]
      split
      · exact .quiet id id
      · split
        · exact .quiet id id
        · exact .plain (Installation.factoryReset_account s) nofun nofun (by decide)

theorem login_serves (server : Server) (r : LoginRequest) :
    Serves p server.installation session (.login r)
    (loginResult session (loginSubmit p server r)) := by
  have hkept := loginSubmit_account p server r
  rcases loginSubmit_session p server r with ⟨hanswer, hexists, hsession⟩ | ⟨hanswer, hsession⟩
  · rw [loginResult, if_pos hanswer, hsession, Option.getD_some]
    obtain ⟨hauth, hversion, hrecovery, hsetup⟩ := loggedIn_session server r
    exact {
      account := hkept
      recovery := by simp [hrecovery]
      setup := by simp [hsetup]
      login := fun _ => ⟨hexists, hauth, hversion⟩
      reset := nofun
      enrolled := nofun }
  · rw [loginResult, if_neg hanswer, hsession, Option.getD_none]
    exact {
      account := hkept
      recovery := .inl
      setup := .inl
      login := nofun
      reset := nofun
      enrolled := nofun }

/-- What the middleware leaves of a session it turns away has no new flag. -/
theorem redirected_flags {path location : String}
    (h : authMiddleware s path session = .redirected location after) :
    (after.recoveryVerified = true → session.recoveryVerified = true) ∧
      (after.setupAccountDone = true → session.setupAccountDone = true) := by
  unfold authMiddleware at h
  split at h
  · cases h
  · split at h
    · cases h
      exact ⟨id, id⟩
    · split at h
      · cases h
        exact ⟨id, id⟩
      · split at h
        · cases h
          exact ⟨nofun, nofun⟩
        · cases h

/-- What a request does, the middleware included. -/
theorem serve_serves (p : Primitives) (server : Server) (session : Session) (request : Request) :
    Serves p server.installation session request (serve p server session request).2 ∧
      (serve p server session request).1.installation =
        (serve p server session request).2.installation := by
  cases hgate : authMiddleware server.installation request.path session with
  | redirected location after =>
      obtain ⟨hrecovery, hsetup⟩ := redirected_flags hgate
      simp only [serve, hgate]
      exact ⟨.quiet hrecovery hsetup, trivial⟩
  | passed =>
      cases request with
      | login r =>
          simp only [serve, hgate]
          exact ⟨login_serves server r, rfl⟩
      | _ =>
          simp only [serve, hgate]
          exact ⟨handle_serves p _ _ _, trivial⟩

end Spec

end Keepup.Routes
