import Keepup.Lib.Dict
import Keepup.Lib.Exchange
import Keepup.Registry.Checks
import Keepup.Notifier.Store

/-!
The look-up of a remote digest. Docker Hub hands out a token first; any other registry may answer
with a challenge that names where to get one. What the requests carry, and what is made of the
answers to them, is the subject here; the rest of the check is in `Checks`. A request is one call of
the client and the reply to it what the call comes to; the redirects on the way are in `Redirects`.
-/

namespace Keepup.Registry

open Lib Remote Exchange

section Source

/-- A value of an answer: how a text shows it, and whether it counts as given. -/
structure Value where
  shown : String
  truthy : Bool

inductive Verb where
  | get
  | head
deriving DecidableEq

/-- A request, with what it carries to prove who asks. Redirects are followed where the client
that makes it was told to. -/
structure Request where
  verb : Verb
  url : String
  params : List (String × String) := []
  auth : Option (String × String) := none
  bearer : Option String := none
  followRedirects : Bool := false
deriving DecidableEq

/-- An answer. The body is that of an object, where it is one. -/
structure Answer where
  status : Nat
  body : Option (Dict String Value) := none
  wwwAuthenticate : Option String := none
  contentDigest : Option String := none
  location : Option String := none

/-- What comes back: an answer, an error of the connection, or another one. -/
inductive Reply where
  | answer (answer : Answer)
  | unreachable
  | broken

inductive Failure where
  | unreachable
  | status (code : Nat)
  | broken
deriving DecidableEq

abbrev Session (α : Type) := Remote Request Reply Failure α

def ask (request : Request) : Session Answer :=
  .call request fun
    | .answer answer => .ret answer
    | .unreachable => .raise .unreachable
    | .broken => .raise .broken

def tokenUrl : String := "https://auth.docker.io/token"

def hubTokenRequest (repo : String) (creds : Option (String × String)) : Request where
  verb := .get
  url := tokenUrl
  params := [("service", "registry.docker.io"), ("scope", "repository:" ++ repo ++ ":pull")]
  auth := creds

def manifestRequest (url : String) (bearer : Option String) : Request where
  verb := .head
  url := url
  bearer := bearer
  followRedirects := true

def challengeRequest (realm : String) (params : List (String × String)) : Request where
  verb := .get
  url := realm
  params := params

def getDockerhubToken (repo : String) (creds : Option (String × String)) : Session Value := do
  let resp ← ask (hubTokenRequest repo creds)
  if 200 ≤ resp.status ∧ resp.status < 300 then
    match resp.body.bind fun body => body.get? "token" with
    | some token => .ret token
    | none => .raise .broken
  else .raise (.status resp.status)

/-- The value after a mark, up to the next quote, at the first place where there is one. -/
def quotedFrom (mark : List Char) : List Char → Option (List Char)
  | [] => none
  | c :: cs =>
      let rest := (c :: cs).drop mark.length
      let value := rest.takeWhile (· ≠ '"')
      if mark.isPrefixOf (c :: cs) ∧ value ≠ [] ∧ value.length < rest.length then some value
      else quotedFrom mark cs

def quoted (key header : String) : Option String :=
  (quotedFrom (key ++ "=\"").toList header.toList).map String.ofList

/-- The values that are given. -/
def Value.given (value : Option Value) : Option Value := value.filter Value.truthy

def challengeToken (realm header : String) : Session (Option Value) := do
  let resp ← ask (challengeRequest realm
    (["service", "scope"].filterMap fun key => (quoted key header).map fun value => (key, value)))
  if resp.status = 200 then
    match resp.body with
    | none => .raise .broken
    | some body => .ret ((Value.given (body.get? "token")).or (body.get? "access_token"))
  else .ret none

def getBearerTokenFromChallenge (header : String) : Session (Option Value) :=
  match quoted "realm" header with
  | none => .ret none
  | some realm => do
      match ← (challengeToken realm header).attempt with
      | .ok token => .ret token
      | .error _ => .ret none

def reasonForStatus (status : Nat) : String :=
  if status = 429 then "rate_limited"
  else if status = 401 ∨ status = 403 then "auth_failed"
  else if status = 404 then "not_found"
  else "registry_error"

def digestFrom (resp : Answer) : DigestResult :=
  if resp.status = 200 then
    if Text.given resp.contentDigest then ⟨resp.contentDigest, none⟩
      else ⟨none, some "registry_error"⟩
  else ⟨none, some (reasonForStatus resp.status)⟩

def askManifest (url : String) (bearer : Option String) : Session DigestResult := do
  let resp ← ask (manifestRequest url bearer)
  if resp.status = 401 then
    match Value.given (← getBearerTokenFromChallenge (resp.wwwAuthenticate.getD "")) with
    | some token => do
        let resp ← ask (manifestRequest url (some token.shown))
        .ret (digestFrom resp)
    | none => .ret ⟨none, some "auth_failed"⟩
  else .ret (digestFrom resp)

/-- What is tried, before the errors are handled. -/
def lookUp (image : String) (creds : Option (String × String)) : Session DigestResult :=
  let ref := parseImageRef image
  match manifestUrl ref with
  | none => .ret ⟨none, some "unsupported_registry"⟩
  | some url =>
      if ref.registry = dockerHub then do
        match ← (getDockerhubToken ref.repository creds).attempt with
        | .ok token => askManifest url (some token.shown)
        | .error (.status code) => .ret ⟨none, some (reasonForStatus code)⟩
        | .error failure => .raise failure
      else askManifest url none

def getRemoteDigest (image : String) (creds : Option (String × String)) : Session DigestResult := do
  match ← (lookUp image creds).attempt with
  | .ok result => .ret result
  | .error .broken => .ret ⟨none, some "registry_error"⟩
  | .error _ => .ret ⟨none, some "unreachable"⟩

end Source

section Confinement

abbrev Log := Exchange.Log Request Reply

/-- An exchange that brings a token. -/
def Gives (exchange : Request × Reply) (token : String) : Prop :=
  ∃ answer body value, exchange.2 = .answer answer ∧ answer.body = some body ∧
    (body.get? "token" = some value ∨ body.get? "access_token" = some value) ∧ value.shown = token

/-- The registry of an image sends who asks to a realm. -/
def Challenges (ref : ImageRef) (exchange : Request × Reply) (realm : String) : Prop :=
  manifestUrl ref = some exchange.1.url ∧ ∃ answer, exchange.2 = .answer answer ∧
    answer.status = 401 ∧ quoted "realm" (answer.wwwAuthenticate.getD "") = some realm

/-- What may be requested after some exchanges. -/
inductive Justified (ref : ImageRef) (creds : Option (String × String)) (log : Log) :
    Request → Prop where
  | hubToken (hhub : ref.registry = dockerHub) :
    Justified ref creds log (hubTokenRequest ref.repository creds)
  | manifest {url bearer} (hurl : manifestUrl ref = some url)
      (hbearer : ∀ token ∈ bearer, ∃ exchange ∈ log, Gives exchange token) :
      Justified ref creds log (manifestRequest url bearer)
  | challenge {realm params} (hrealm : ∃ exchange ∈ log, Challenges ref exchange realm) :
      Justified ref creds log (challengeRequest realm params)

inductive Confined (ref : ImageRef) (creds : Option (String × String)) : Log → Prop where
  | nil : Confined ref creds []
  | snoc {log request reply} (hlog : Confined ref creds log)
    (hrequest : Justified ref creds log request) :
      Confined ref creds (log ++ [(request, reply)])

/-- A digest comes from a manifest of the image, and without one there is a reason. -/
def Explained (ref : ImageRef) (log : Log) (result : DigestResult) : Prop :=
  (∃ request answer digest, log.getLast? = some (request, .answer answer) ∧ request.verb = .head ∧
    manifestUrl ref = some request.url ∧ answer.status = 200 ∧ answer.contentDigest = some digest ∧
      digest ≠ "" ∧ result = ⟨some digest, none⟩) ∨
  ∃ reason, (reason, Notifier.reasonLabel reason) ∈ Notifier.reasonLabels ∧
    result = ⟨none, some reason⟩

variable {ref : ImageRef} {creds : Option (String × String)} {log : Log}

theorem Confined.of_snoc {request : Request} {reply : Reply}
    (h : Confined ref creds (log ++ [(request, reply)])) :
    Confined ref creds log ∧ Justified ref creds log request := by
  generalize hwhole : log ++ [(request, reply)] = whole at h
  cases h with
  | nil => exact absurd hwhole (by simp)
  | snoc hlog hrequest =>
      obtain ⟨rfl, hpair⟩ := List.append_inj' hwhole rfl
      cases hpair
      exact ⟨hlog, hrequest⟩

/-- How many exchanges a request can take, when this many redirects of it are followed. -/
def spent (most : Nat) (request : Request) : Nat := if request.followRedirects then most + 1 else 1

def cost (most : Nat) (log : Log) : Nat := (log.map fun exchange => spent most exchange.1).sum

@[simp] theorem cost_append (most : Nat) (log log' : Log) :
    cost most (log ++ log') = cost most log + cost most log' := by
  simp [cost]

@[simp] theorem cost_single (most : Nat) (request : Request) (reply : Reply) :
    cost most [(request, reply)] = spent most request := by
  simp [cost]

@[simp] theorem spent_manifest (most : Nat) (url : String) (bearer : Option String) :
    spent most (manifestRequest url bearer) = most + 1 := rfl

@[simp] theorem spent_hubToken (most : Nat) (repo : String) (creds : Option (String × String)) :
    spent most (hubTokenRequest repo creds) = 1 := rfl

@[simp] theorem spent_challenge (most : Nat) (realm : String) (params : List (String × String)) :
    spent most (challengeRequest realm params) = 1 := rfl

variable (most : Nat)

theorem holds_ask_bind {α : Type} {request : Request} {k : Answer → Session α}
    {Q : Log → Except Failure α → Prop}
    (hanswer : ∀ answer, Holds serve (k answer) (log ++ [(request, .answer answer)]) Q)
    (hlost : ∀ reply failure, (reply = .unreachable ∧ failure = .unreachable ∨
      reply = .broken ∧ failure = .broken) → Q (log ++ [(request, reply)]) (.error failure)) :
    Holds serve (ask request >>= k) log Q := by
  refine holds_ask fun reply => ?_
  cases reply with
  | answer answer => exact hanswer answer
  | unreachable => exact holds_raise (hlost _ _ (.inl ⟨rfl, rfl⟩))
  | broken => exact holds_raise (hlost _ _ (.inr ⟨rfl, rfl⟩))

theorem holds_getDockerhubToken (hhub : ref.registry = dockerHub) :
    Holds serve (getDockerhubToken ref.repository creds) [] fun log' result =>
      Confined ref creds log' ∧ cost most log' = 1 ∧
        ∀ token, result = .ok token → ∃ exchange ∈ log', Gives exchange token.shown := by
  have hconfined : ∀ reply, Confined ref creds ([] ++
      [(hubTokenRequest ref.repository creds, reply)]) :=
    fun reply => .snoc .nil (.hubToken hhub)
  refine holds_ask_bind (fun answer => ?_) fun reply failure _ => ⟨hconfined _, rfl, by simp⟩
  split
  · cases hbody : answer.body with
    | none => exact holds_raise ⟨hconfined _, rfl, by simp⟩
    | some body =>
        cases htoken : body.get? "token" with
        | none =>
            simp only [Option.bind_some, htoken]
            exact holds_raise ⟨hconfined _, rfl, by simp⟩
        | some token =>
            simp only [Option.bind_some, htoken]
            refine holds_ret ⟨hconfined _, rfl, fun value hvalue => ?_⟩
            cases hvalue
            exact ⟨_, List.mem_cons_self, answer, body, token, rfl, hbody, .inl htoken, rfl⟩
  · exact holds_raise ⟨hconfined _, rfl, by simp⟩

theorem holds_challengeToken (realm header : String) :
    Holds serve (challengeToken realm header) log fun log' result =>
      ∃ params reply, log' = log ++ [(challengeRequest realm params, reply)] ∧
        ∀ token, result = .ok (some token) →
          Gives (challengeRequest realm params, reply) token.shown := by
  refine holds_ask_bind (fun answer => ?_) fun reply failure _ => ⟨_, _, rfl, by simp⟩
  split
  · cases hbody : answer.body with
    | none => exact holds_raise ⟨_, _, rfl, by simp⟩
    | some body =>
        refine holds_ret ⟨_, _, rfl, fun token htoken => ?_⟩
        have hgiven := Except.ok.inj htoken
        rcases Option.or_eq_some_iff.mp hgiven with hfirst | ⟨_, hsecond⟩
        · exact ⟨answer, body, token, rfl, hbody, .inl (Option.filter_eq_some_iff.mp hfirst).1, rfl⟩
        · exact ⟨answer, body, token, rfl, hbody, .inr hsecond, rfl⟩
  · exact holds_ret ⟨_, _, rfl, by simp⟩

theorem holds_getBearerToken (h : Confined ref creds log) {exchange : Request × Reply}
    {header : String} (hmem : exchange ∈ log)
    (hchallenge : ∀ realm, quoted "realm" header = some realm → Challenges ref exchange realm) :
    Holds serve (getBearerTokenFromChallenge header) log fun log' result =>
      Confined ref creds log' ∧ cost most log' ≤ cost most log + 1 ∧ ∃ token, result = .ok token ∧
        ∀ value ∈ token, ∃ exchange ∈ log', Gives exchange value.shown := by
  rw [getBearerTokenFromChallenge]
  cases hrealm : quoted "realm" header with
  | none => exact holds_ret ⟨h, Nat.le_succ _, none, rfl, by simp⟩
  | some realm =>
      refine holds_attempt (holds_mono (holds_challengeToken realm header) ?_)
      rintro log' result ⟨params, reply, rfl, hgives⟩
      have hconfined : Confined ref creds (log ++ [(challengeRequest realm params, reply)]) :=
        h.snoc (.challenge ⟨exchange, hmem, hchallenge realm hrealm⟩)
      have hcost : cost most (log ++ [(challengeRequest realm params, reply)]) ≤
        cost most log + 1 := by simp
      cases result with
      | error failure => exact holds_ret ⟨hconfined, hcost, none, rfl, by simp⟩
      | ok token =>
          refine holds_ret ⟨hconfined, hcost, token, rfl, fun value hvalue => ?_⟩
          cases hvalue
          exact ⟨_, List.mem_append_right _ List.mem_cons_self, hgives value rfl⟩

theorem reasonForStatus_labelled (status : Nat) :
    (reasonForStatus status, Notifier.reasonLabel (reasonForStatus status)) ∈
      Notifier.reasonLabels := by
  rw [reasonForStatus]
  split
  · decide
  · split
    · decide
    · split <;> decide

theorem digestFrom_explained {url : String} {bearer : Option String} {answer : Answer}
    (hurl : manifestUrl ref = some url) (before : Log) :
    Explained ref (before ++ [(manifestRequest url bearer, .answer answer)])
    (digestFrom answer) := by
  rw [digestFrom]
  split
  case isTrue hstatus =>
    cases hdigest : answer.contentDigest with
    | none => exact .inr ⟨"registry_error", by decide, rfl⟩
    | some digest =>
        by_cases hempty : digest = ""
        · subst hempty
          exact .inr ⟨"registry_error", by decide, rfl⟩
        · rw [if_pos (by simp [Text.given, Text.orElse, hempty])]
          exact .inl ⟨_, answer, digest, List.getLast?_concat ..,
            rfl, hurl, hstatus, hdigest, hempty, rfl⟩
  case isFalse => exact .inr ⟨_, reasonForStatus_labelled _, rfl⟩

/-- What a look-up has done from a log on when it ends. -/
def Ends (ref : ImageRef) (creds : Option (String × String)) (most bound : Nat) (log : Log)
    (result : Except Failure DigestResult) : Prop :=
  Confined ref creds log ∧ cost most log ≤ bound ∧ (∀ r, result = .ok r → Explained ref log r) ∧
    ∀ code, result ≠ .error (.status code)

/-- The manifest is requested once more, with the token. -/
theorem holds_lastManifest (h : Confined ref creds log) {url shown : String}
    (hurl : manifestUrl ref = some url) (hgives : ∃ exchange ∈ log, Gives exchange shown) :
    Holds serve (do let resp ← ask (manifestRequest url (some shown)); .ret (digestFrom resp)) log
      (Ends ref creds most (cost most log + (most + 1))) := by
  have hlast : ∀ reply, Confined ref creds (log ++ [(manifestRequest url (some shown), reply)]) :=
    fun reply => h.snoc (.manifest hurl fun token htoken => by
      cases htoken
      exact hgives)
  refine holds_ask_bind (fun answer => ?_) fun reply failure hfailure => ?_
  · refine holds_ret ⟨hlast _, by simp, fun r hr => ?_, by simp⟩
    cases hr
    exact digestFrom_explained hurl log
  · rcases hfailure with ⟨rfl, rfl⟩ | ⟨rfl, rfl⟩ <;> exact ⟨hlast _, by simp, by simp, by simp⟩

theorem holds_askManifest (h : Confined ref creds log) {url : String} {bearer : Option String}
    (hurl : manifestUrl ref = some url)
    (hbearer : ∀ token ∈ bearer, ∃ exchange ∈ log, Gives exchange token) :
    Holds serve (askManifest url bearer) log
      (Ends ref creds most (cost most log + (2 * most + 3))) := by
  have hfirst : ∀ reply, Confined ref creds (log ++ [(manifestRequest url bearer, reply)]) :=
    fun reply => h.snoc (.manifest hurl hbearer)
  have hcost : ∀ reply, cost most (log ++ [(manifestRequest url bearer, reply)]) ≤
      cost most log + (2 * most + 3) := by
    intro reply
    rw [cost_append, cost_single, spent_manifest]
    omega
  refine holds_ask_bind (fun answer => ?_) fun reply failure hfailure => ?_
  · split
    case isTrue hstatus =>
      have hmem : (manifestRequest url bearer, Reply.answer answer) ∈
          log ++ [(manifestRequest url bearer, Reply.answer answer)] := by simp
      refine holds_bind (holds_mono (holds_getBearerToken most (hfirst _) hmem fun realm hrealm =>
        ⟨hurl, answer, rfl, hstatus, hrealm⟩) ?_)
      rintro log' result ⟨hconfined, hcost', token, rfl, hgives⟩
      rw [cost_append, cost_single, spent_manifest] at hcost'
      cases htoken : Value.given token with
      | none =>
          simp only [htoken]
          refine holds_ret ⟨hconfined, by omega, fun r hr => ?_, by simp⟩
          cases hr
          exact .inr ⟨"auth_failed", by decide, rfl⟩
      | some value =>
          simp only [htoken]
          have hvalue : value ∈ token := (Option.filter_eq_some_iff.mp htoken).1
          refine holds_mono (holds_lastManifest most hconfined hurl (hgives value hvalue)) ?_
          rintro last result ⟨hconfined', hlast, hresult⟩
          exact ⟨hconfined', by omega, hresult⟩
    case isFalse =>
      refine holds_ret ⟨hfirst _, hcost _, fun r hr => ?_, by simp⟩
      cases hr
      exact digestFrom_explained hurl log
  · rcases hfailure with ⟨rfl, rfl⟩ | ⟨rfl, rfl⟩ <;> exact ⟨hfirst _, hcost _, by simp, by simp⟩

theorem holds_lookUp (image : String) (creds : Option (String × String)) :
    Holds serve (lookUp image creds) [] (Ends (parseImageRef image) creds most (2 * most + 4)) := by
  unfold lookUp
  generalize parseImageRef image = ref
  cases hurl : manifestUrl ref with
  | none =>
      simp only [hurl]
      refine holds_ret ⟨.nil, Nat.zero_le _, fun r hr => ?_, by simp⟩
      cases hr
      exact .inr ⟨"unsupported_registry", by decide, rfl⟩
  | some url =>
      by_cases hhub : ref.registry = dockerHub
      · simp only [hurl, if_pos hhub]
        refine holds_attempt (holds_mono (@holds_getDockerhubToken _ creds most hhub) ?_)
        rintro log result ⟨hconfined, hcost, hgives⟩
        cases result with
        | ok token =>
            have hbearer : ∀ shown ∈ some token.shown, ∃ exchange ∈ log, Gives exchange shown := by
              intro shown hshown
              cases hshown
              exact hgives token rfl
            have hask := holds_askManifest most hconfined hurl hbearer
            rw [hcost, show 1 + (2 * most + 3) = 2 * most + 4 by omega] at hask
            exact hask
        | error failure =>
            cases failure with
            | status code =>
                refine holds_ret ⟨hconfined, by omega, fun r hr => ?_, by simp⟩
                cases hr
                exact .inr ⟨_, reasonForStatus_labelled code, rfl⟩
            | unreachable => exact holds_raise ⟨hconfined, by omega, by simp, by simp⟩
            | broken => exact holds_raise ⟨hconfined, by omega, by simp, by simp⟩
      · simp only [hurl, if_neg hhub]
        have hask := @holds_askManifest _ creds [] most .nil url none hurl (by simp)
        refine holds_mono hask ?_
        rintro log result ⟨hconfined, hcost, hresult⟩
        exact ⟨hconfined, hcost.trans (by simp [cost]), hresult⟩

theorem holds_getRemoteDigest (image : String) (creds : Option (String × String)) :
    Holds serve (getRemoteDigest image creds) [] fun log result =>
      Confined (parseImageRef image) creds log ∧ cost most log ≤ 2 * most + 4 ∧
        ∃ found, result = .ok found ∧ Explained (parseImageRef image) log found := by
  refine holds_attempt (holds_mono (holds_lookUp most image creds) ?_)
  rintro log result ⟨hconfined, hcost, hexplained, hstatus⟩
  cases result with
  | ok found => exact holds_ret ⟨hconfined, hcost, found, rfl, hexplained found rfl⟩
  | error failure =>
      cases failure with
      | status code => exact absurd rfl (hstatus code)
      | unreachable => exact holds_ret ⟨hconfined, hcost, _, rfl,
          .inr ⟨"unreachable", by decide, rfl⟩⟩
      | broken => exact holds_ret ⟨hconfined, hcost, _, rfl,
          .inr ⟨"registry_error", by decide, rfl⟩⟩

end Confinement

section Results

/-- The look-up against these replies. It always comes to a result. -/
def remoteDigest (creds : Option (String × String)) (replies : Nat → Request → Reply)
    (image : String) :
    DigestResult :=
  (outcome (getRemoteDigest image creds) replies).2.toOption.getD ⟨none, none⟩

theorem remoteDigest_explained (creds : Option (String × String)) (replies : Nat → Request → Reply)
    (image : String) :
    Explained (parseImageRef image) (outcome (getRemoteDigest image creds) replies).1
      (remoteDigest creds replies image) := by
  obtain ⟨_, _, found, hfound, hexplained⟩ :=
    outcome_of_holds (holds_getRemoteDigest 0 image creds) replies
  rw [remoteDigest, hfound]
  exact hexplained

/-- A check that says whether there is an update has had the digest of the image's own manifest from
its registry, whatever else has happened, and it compares that one with the first recorded digest.
Otherwise it says that it does not know, with a reason that the page can name. -/
theorem check_explained (creds : Option (String × String)) (replies : Nat → Request → Reply)
    (image : String) (repoDigests : List String) :
    let check := checkImage (remoteDigest creds replies) image repoDigests
    (check.status = .unknown ∧ ∃ reason, check.reason = some reason ∧
      (reason, Notifier.reasonLabel reason) ∈ Notifier.reasonLabels) ∨
    (check.reason = none ∧ ∃ request answer digest own,
      (outcome (getRemoteDigest image creds) replies).1.getLast? = some (request, .answer answer) ∧
      request.verb = .head ∧ manifestUrl (parseImageRef image) = some request.url ∧
        answer.status = 200 ∧
      answer.contentDigest = some digest ∧ (recorded repoDigests).head? = some own ∧
      check.status = if digest = own then .upToDate else .updateAvailable) := by
  have hexplained := remoteDigest_explained creds replies image
  simp only [checkImage, checkImageUpdate, Option.getD_some]
  by_cases himage : Text.given (some image) = false
  · rw [if_pos himage]
    exact .inl ⟨rfl, _, rfl, by decide⟩
  rw [if_neg himage, extract_eq_head]
  cases hown : (recorded repoDigests).head? with
  | none => exact .inl ⟨rfl, _, rfl, by decide⟩
  | some own =>
      by_cases hlocal : Text.given (some own) = false
      · rw [if_pos hlocal]
        exact .inl ⟨rfl, _, rfl, by decide⟩
      rw [if_neg hlocal]
      rcases hexplained with ⟨request, answer, digest, hlast, hverb,
        hurl, hstatus, hdigest, _, hresult⟩ |
        ⟨reason, hlabel, hresult⟩
      · rw [hresult]
        by_cases hsame : digest = own
        · exact .inr ⟨by simp [hsame], request, answer, digest,
            own, hlast, hverb, hurl, hstatus, hdigest,
            rfl, by simp [hsame]⟩
        · exact .inr ⟨by simp [hsame], request, answer, digest,
            own, hlast, hverb, hurl, hstatus, hdigest,
            rfl, by simp [hsame]⟩
      · rw [hresult]
        by_cases hempty : reason = ""
        · subst hempty
          exact absurd hlabel (by decide)
        · refine .inl ⟨rfl, reason, ?_, hlabel⟩
          simp [Text.orElse, hempty]

end Results

end Keepup.Registry
