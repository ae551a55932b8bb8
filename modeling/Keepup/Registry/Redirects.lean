import Mathlib.Logic.Relation
import Keepup.Registry.Lookup

/-!
The exchanges on the wire. The client for the manifests follows redirects, so that one call of it
may take several exchanges, with servers that nobody has named before. How the client reads a
redirect is its own affair; the program relies on what is documented of it, that a way ends after a
number of redirects and that what proves who asks is left out on the way to another origin.
-/

namespace Keepup.Registry

open Lib Remote Exchange

section Source

/-- Where a URL leads. -/
structure Origin where
  scheme : String
  host : String
  port : Nat
deriving DecidableEq

/-- What the client makes of an answer: the result of the call, the next request, or an error. -/
inductive Next where
  | final
  | ask (request : Request)
  | giveUp

structure Client where
  origin : String → Origin
  next : Request → Answer → Next
  maxRedirects : Nat

/-- What is documented of a client that follows redirects. An origin may also be left for the same
one over TLS. -/
structure Client.Documented (client : Client) : Prop where
  scheme : ∀ rest, (client.origin ("https://" ++ rest)).scheme = "https"
  auth : ∀ {request answer next}, client.next request answer = .ask next → next.auth ≠ none →
    next.auth = request.auth
  bearer : ∀ {request answer next}, client.next request answer = .ask next → next.bearer ≠ none →
    next.bearer = request.bearer ∧ (client.origin next.url = client.origin request.url ∨
      (client.origin request.url).scheme = "http")

variable (client : Client)

def Client.after (request : Request) : Reply → Next
  | .answer answer => client.next request answer
  | _ => .final

/-- A request with its redirects, of which this many are left. -/
def Client.follow : Nat → Request → Remote Request Reply Failure Reply
  | 0, request => .call request fun reply =>
      match client.after request reply with
      | .final => .ret reply
      | _ => .ret .unreachable
  | left + 1, request => .call request fun reply =>
      match client.after request reply with
      | .final => .ret reply
      | .giveUp => .ret .unreachable
      | .ask next => follow left next

def Client.send (request : Request) : Remote Request Reply Failure Reply :=
  if request.followRedirects then client.follow client.maxRedirects request else .call request .ret

end Source

section Chains

variable {client : Client}

/-- The exchanges of one call that comes to this reply. -/
inductive Chain (client : Client) : Request → Reply → Log → Prop where
  | final {request reply} : Chain client request reply [(request, reply)]
  | gaveUp {request reply} : Chain client request .unreachable [(request, reply)]
  | moved {request answer next reply chain} (hnext : client.next request answer = .ask next)
      (hchain : Chain client next reply chain) :
        Chain client request reply ((request, .answer answer) :: chain)

theorem after_ask {request next : Request} {reply : Reply}
    (h : client.after request reply = .ask next) :
    ∃ answer, reply = .answer answer ∧ client.next request answer = .ask next := by
  cases reply with
  | answer answer => exact ⟨answer, rfl, h⟩
  | unreachable => cases h
  | broken => cases h

theorem holds_follow (left : Nat) (request : Request) (log : Log) :
    Holds serve (client.follow left request) log fun log' result =>
      ∃ reply chain, log' = log ++ chain ∧
      result = .ok reply ∧ Chain client request reply chain ∧ chain.length ≤ left + 1 := by
  induction left generalizing request log with
  | zero =>
      refine holds_ask fun reply => ?_
      split
      · exact holds_ret ⟨reply, _, rfl, rfl, .final, by simp⟩
      · exact holds_ret ⟨.unreachable, _, rfl, rfl, .gaveUp, by simp⟩
  | succ left ih =>
      refine holds_ask fun reply => ?_
      split
      case h_1 => exact holds_ret ⟨reply, _, rfl, rfl, .final, by simp⟩
      case h_2 => exact holds_ret ⟨.unreachable, _, rfl, rfl, .gaveUp, by simp⟩
      case h_3 next hnext =>
        obtain ⟨answer, rfl, hask⟩ := after_ask hnext
        refine holds_mono (ih next _) ?_
        rintro log' result ⟨last, chain, rfl, rfl, hchain, hlength⟩
        refine ⟨last, (request, .answer answer) :: chain, by simp, rfl, .moved hask hchain, ?_⟩
        rw [List.length_cons]
        omega

/-- How a call is carried out. -/
structure Carries (client : Client) (request : Request) (reply : Reply) (chain : Log) : Prop where
  made : Chain client request reply chain
  bounded : chain.length ≤ spent client.maxRedirects request
  single : request.followRedirects = false → chain = [(request, reply)]

theorem holds_send (request : Request) (log : Log) :
    Holds serve (client.send request) log fun log' result => ∃ reply chain, log' = log ++ chain ∧
      result = .ok reply ∧ Carries client request reply chain := by
  rw [Client.send]
  cases hfollow : request.followRedirects with
  | true =>
      refine holds_mono (holds_follow client.maxRedirects request log) ?_
      rintro log' result ⟨reply, chain, hlog, hresult, hchain, hlength⟩
      exact ⟨reply, chain, hlog, hresult, hchain, by simpa [spent, hfollow] using hlength,
        by simp [hfollow]⟩
  | false =>
      exact holds_ask fun reply =>
        holds_ret ⟨reply, _, rfl, rfl, .final, by simp [spent, hfollow], fun _ => rfl⟩

/-- A request that redirects in the log lead to from another one. -/
def Leads (client : Client) (log : Log) : Request → Request → Prop :=
  Relation.ReflTransGen fun request next =>
    ∃ answer, (request, Reply.answer answer) ∈ log ∧ client.next request answer = .ask next

theorem Leads.mono {log log' : Log} {first last : Request}
    (hsub : ∀ exchange ∈ log, exchange ∈ log')
    (h : Leads client log first last) : Leads client log' first last :=
  Relation.ReflTransGen.mono (fun _ _ ⟨answer, hmem, hnext⟩ => ⟨answer, hsub _ hmem, hnext⟩) _ _ h

/-- The answer that a call comes to is to a request where its redirects lead. -/
theorem Chain.answered {request : Request} {reply : Reply} {chain : Log} {answer : Answer}
    (h : Chain client request reply chain) (hreply : reply = .answer answer) :
    ∃ last, (last, Reply.answer answer) ∈ chain ∧ Leads client chain request last := by
  induction h with
  | final =>
      subst hreply
      exact ⟨_, List.mem_cons_self, .refl⟩
  | gaveUp => cases hreply
  | moved hnext _ ih =>
      obtain ⟨last, hmem, hleads⟩ := ih hreply
      refine ⟨last, List.mem_cons_of_mem _ hmem, .head ⟨_, List.mem_cons_self, hnext⟩ ?_⟩
      exact hleads.mono fun _ => List.mem_cons_of_mem _

/-- What holds of a call, and is kept by each redirect, holds of every request of a chain. -/
theorem Chain.each {P : Log → Request → Prop} {request : Request} {reply : Reply} {chain log : Log}
    (h : Chain client request reply chain) (hfirst : P log request)
    (hstep : ∀ {log request answer next}, P log request → client.next request answer = .ask next →
      P (log ++ [(request, .answer answer)]) next) :
    Each (fun before request => P (log ++ before) request) chain := by
  induction h generalizing log with
  | final => exact each_single (by simpa using hfirst) _
  | gaveUp => exact each_single (by simpa using hfirst) _
  | moved hnext _ ih =>
      refine each_append (each_single (by simpa using hfirst) _) ?_
      simpa using ih (hstep hfirst hnext)

end Chains

section Confinement

/-- A request for the manifest of the image, or one where redirects of such a request lead. -/
def FromManifest (client : Client) (ref : ImageRef) (log : Log) (request : Request) : Prop :=
  ∃ first, manifestUrl ref = some first.url ∧ Leads client log first request

/-- Who was asked for the manifest has refused, and sent who asks to a realm. -/
def Refers (client : Client) (ref : ImageRef) (log : Log) (realm : String) : Prop :=
  ∃ request answer, (request, Reply.answer answer) ∈ log ∧ FromManifest client ref log request ∧
    answer.status = 401 ∧ quoted "realm" (answer.wwwAuthenticate.getD "") = some realm

/-- What the look-up of an image may request, and with what, after some exchanges. -/
structure Permitted (client : Client) (ref : ImageRef) (creds : Option (String × String))
    (log : Log) (request : Request) : Prop where
  credentials : request.auth ≠ none →
    request.url = tokenUrl ∧ request.auth = creds ∧ ref.registry = dockerHub
  token : ∀ token, request.bearer = some token →
    (∃ url, manifestUrl ref = some url ∧ client.origin request.url = client.origin url) ∧
      ∃ exchange ∈ log, Gives exchange token
  known : request.url = tokenUrl ∧ ref.registry = dockerHub ∨ FromManifest client ref log request ∨
    Refers client ref log request.url

variable {client : Client} {ref : ImageRef} {creds : Option (String × String)} {log wire : Log}

theorem carried_length (h : Carried (Carries client) log wire) :
    wire.length ≤ cost client.maxRedirects log := by
  induction h with
  | nil => exact Nat.zero_le _
  | snoc _ hchain ih =>
      rw [List.length_append, cost_append, cost_single]
      exact Nat.add_le_add ih hchain.bounded

theorem carried_answered (h : Carried (Carries client) log wire) {request : Request}
    {answer : Answer} (hmem : (request, Reply.answer answer) ∈ log) :
    ∃ last, (last, Reply.answer answer) ∈ wire ∧ Leads client wire request last := by
  induction h with
  | nil => cases hmem
  | snoc _ hchain ih =>
      rcases List.mem_append.mp hmem with hbefore | hlast
      · obtain ⟨last, hlast, hleads⟩ := ih hbefore
        exact ⟨last, List.mem_append_left _ hlast, hleads.mono fun _ => List.mem_append_left _⟩
      · cases List.mem_singleton.mp hlast
        obtain ⟨last, hlast, hleads⟩ := hchain.made.answered rfl
        exact ⟨last, List.mem_append_right _ hlast, hleads.mono fun _ => List.mem_append_right _⟩

theorem carried_gives (h : Carried (Carries client) log wire) {token : String}
    (hgives : ∃ exchange ∈ log, Gives exchange token) :
    ∃ exchange ∈ wire, Gives exchange token := by
  obtain ⟨⟨request, reply⟩, hmem, answer, body, value, rfl, hbody, hvalue, hshown⟩ := hgives
  obtain ⟨last, hlast, _⟩ := carried_answered h hmem
  exact ⟨_, hlast, answer, body, value, rfl, hbody, hvalue, hshown⟩

theorem carried_refers (h : Carried (Carries client) log wire) {realm : String}
    (hrealm : ∃ exchange ∈ log, Challenges ref exchange realm) : Refers client ref wire realm := by
  obtain ⟨⟨request, reply⟩, hmem, hurl, answer, rfl, hstatus, hquoted⟩ := hrealm
  obtain ⟨last, hlast, hleads⟩ := carried_answered h hmem
  exact ⟨last, answer, hlast, ⟨request, hurl, hleads⟩, hstatus, hquoted⟩

theorem manifestUrl_https {url : String} (h : manifestUrl ref = some url) :
    ∃ rest, url = "https://" ++ rest := by
  rw [manifestUrl] at h
  split at h
  · cases h
    exact ⟨"registry-1.docker.io/v2/" ++ ref.repository ++ "/manifests/" ++ ref.tag, by
      simp only [← String.append_assoc]
      rfl⟩
  · split at h
    · cases h
      exact ⟨ref.registry ++ "/v2/" ++ ref.repository ++ "/manifests/" ++ ref.tag, by
        simp only [← String.append_assoc]⟩
    · cases h

/-- A request on the way from one for the manifest. -/
structure Way (client : Client) (first : Request) (log : Log) (request : Request) : Prop where
  leads : Leads client log first request
  plain : request.auth = none
  token : ∀ token, request.bearer = some token →
    first.bearer = some token ∧ client.origin request.url = client.origin first.url
  given : ∀ token ∈ first.bearer, ∃ exchange ∈ log, Gives exchange token

/-- A redirect does not take a token to another origin. -/
theorem Way.step (hclient : client.Documented) {first request next : Request} {answer : Answer}
    (hscheme : (client.origin first.url).scheme = "https") (h : Way client first log request)
    (hnext : client.next request answer = .ask next) :
    Way client first (log ++ [(request, .answer answer)]) next where
  leads := by
    refine (h.leads.mono fun _ => List.mem_append_left _).tail ⟨answer, ?_, hnext⟩
    exact List.mem_append_right _ List.mem_cons_self
  plain := by
    by_contra hauth
    exact hauth ((hclient.auth hnext hauth).trans h.plain)
  token := by
    intro token htoken
    obtain ⟨hkept, horigin⟩ := hclient.bearer hnext (by simp [htoken])
    obtain ⟨hfirst, hsame⟩ := h.token token (hkept.symm.trans htoken)
    refine ⟨hfirst, ?_⟩
    rcases horigin with horigin | hplain
    · exact horigin.trans hsame
    · rw [hsame, hscheme] at hplain
      exact absurd hplain (by decide)
  given := fun token htoken => by
    obtain ⟨exchange, hmem, hgives⟩ := h.given token htoken
    exact ⟨exchange, List.mem_append_left _ hmem, hgives⟩

theorem Way.permitted {first request : Request} (hurl : manifestUrl ref = some first.url)
    (h : Way client first log request) : Permitted client ref creds log request where
  credentials := fun hauth => absurd h.plain hauth
  token := fun token htoken =>
    ⟨⟨first.url, hurl, (h.token token htoken).2⟩, h.given token (h.token token htoken).1⟩
  known := .inr (.inl ⟨first, hurl, h.leads⟩)

/-- One call of the look-up, whatever is made of it. -/
theorem call_permitted (hclient : client.Documented) (hcarried : Carried (Carries client) log wire)
    {request : Request} {reply : Reply} {chain : Log} (h : Justified ref creds log request)
    (hchain : Carries client request reply chain) :
    Each (fun before request => Permitted client ref creds (wire ++ before) request) chain := by
  cases h with
  | hubToken hhub =>
      rw [hchain.single rfl]
      refine each_single ⟨fun _ => ⟨rfl, rfl, hhub⟩, fun token htoken => ?_, .inl ⟨rfl, hhub⟩⟩ reply
      cases htoken
  | challenge hrealm =>
      rw [hchain.single rfl]
      refine each_single ⟨fun hauth => absurd rfl hauth, fun token htoken =>
        ?_, .inr (.inr ?_)⟩ reply
      · cases htoken
      · rw [List.append_nil]
        exact carried_refers hcarried hrealm
  | @manifest url bearer hurl hbearer =>
      obtain ⟨rest, hrest⟩ := manifestUrl_https hurl
      have hscheme : (client.origin url).scheme = "https" := hrest ▸ hclient.scheme rest
      have hway : Way client (manifestRequest url bearer) wire (manifestRequest url bearer) :=
        ⟨.refl, rfl, fun _ htoken => ⟨htoken, rfl⟩, fun token htoken =>
          carried_gives hcarried (hbearer token htoken)⟩
      have heach := hchain.made.each hway fun h hnext => h.step hclient hscheme hnext
      exact fun before request reply after hsplit =>
        (heach before request reply after hsplit).permitted hurl

theorem carried_permitted (hclient : client.Documented)
    (hcarried : Carried (Carries client) log wire)
    (hconfined : Confined ref creds log) : Each (Permitted client ref creds) wire := by
  induction hcarried with
  | nil => exact each_nil
  | snoc hlog hchain ih =>
      obtain ⟨hbefore, hrequest⟩ := hconfined.of_snoc
      exact each_append (ih hbefore) (call_permitted hclient hlog hrequest hchain)

end Confinement

instance : Nonempty Reply := ⟨.unreachable⟩

/-- Whatever the servers answer, redirects included, the look-up of a digest ends after so many
requests and keeps to them. The credentials of Docker Hub go to it alone, when it is asked for a
token. A token that was given out before goes to the origin of the image's own manifest alone. Every
request is for such a token, for the manifest or where redirects lead from it, or to a realm that a
refusal of it names. -/
theorem requests_confined {client : Client} (hclient : client.Documented) (image : String)
    (creds : Option (String × String)) (replies : Nat → Request → Reply) :
    let wire := (outcome (through client.send (getRemoteDigest image creds)) replies).1
    wire.length ≤ 2 * client.maxRedirects + 4 ∧
        Each (Permitted client (parseImageRef image) creds) wire := by
  obtain ⟨log, hcarried, hconfined, hcost, _⟩ :=
    outcome_of_holds (holds_through holds_send
      (holds_getRemoteDigest client.maxRedirects image creds) .nil) replies
  exact ⟨(carried_length hcarried).trans hcost, carried_permitted hclient hcarried hconfined⟩

section Relocation

/-- The client, as far as it is needed for absolute locations and those on the same server. -/
def relocating : Client where
  origin url :=
    if "https://".toList.isPrefixOf url.toList then
      ⟨"https", String.ofList ((url.toList.drop 8).takeWhile (· ≠ '/')), 443⟩
    else ⟨"http", String.ofList ((url.toList.drop 7).takeWhile (· ≠ '/')), 80⟩
  next request answer :=
    match if answer.status ∈ [301, 302, 303, 307, 308] then answer.location else none with
    | none => .final
    | some location =>
        if location.toList.head? = some '/' then
          .ask { request with
            url := String.ofList (request.url.toList.take 8 ++
              (request.url.toList.drop 8).takeWhile (· ≠ '/') ++
              location.toList) }
        else .ask { request with url := location, auth := none, bearer := none }
  maxRedirects := 20

/-- A registry that has moved an image within itself, and its manifests to another server. -/
def movedReplies : Nat → Request → Reply
  | 0, _ | 3, _ => .answer { status := 307, location := some "/v2/moved/app/manifests/1.0" }
  | 1, _ => .answer { status := 401,
                      wwwAuthenticate := some "Bearer realm=\"https://ghcr.io/token\"" }
  | 2, _ => .answer { status := 200, body := some ⟨[("token", ⟨"t1", true⟩)], by simp⟩ }
  | 4, _ => .answer { status := 307, location := some "https://cdn.example/manifest" }
  | _, _ => .answer { status := 200, contentDigest := some "sha256:ab12" }

theorem relocating_next {request next : Request} {answer : Answer}
    (h : relocating.next request answer = .ask next) :
    (∃ path, next = { request with
      url := String.ofList (request.url.toList.take 8 ++
        (request.url.toList.drop 8).takeWhile (· ≠ '/') ++
        '/' :: path) }) ∨ next.auth = none ∧ next.bearer = none := by
  simp only [relocating] at h
  split at h
  case h_1 => cases h
  case h_2 location _ =>
    split at h
    case isTrue hslash =>
      obtain ⟨path, hpath⟩ := List.head?_eq_some_iff.mp hslash
      left
      refine ⟨path, ?_⟩
      cases h
      rw [← hpath]
    case isFalse =>
      right
      cases h
      exact ⟨rfl, rfl⟩

theorem relocating_https {url : String} {rest : List Char}
    (h : url.toList = "https://".toList ++ rest) :
    relocating.origin url = ⟨"https", String.ofList (rest.takeWhile (· ≠ '/')), 443⟩ := by
  simp only [relocating, h]
  rfl

/-- Another path is of the same origin. -/
theorem relocating_path (url : String) (path : List Char) :
    relocating.origin (String.ofList (url.toList.take 8 ++
      (url.toList.drop 8).takeWhile (· ≠ '/') ++ '/' :: path)) =
      relocating.origin url ∨ (relocating.origin url).scheme = "http" := by
  by_cases hhttps : "https://".toList <+: url.toList
  · left
    obtain ⟨rest, hrest⟩ := hhttps
    have hfree : ∀ c ∈ rest.takeWhile (· ≠ '/'), (decide (c ≠ '/')) = true :=
      fun c hc => by simpa using List.mem_takeWhile_imp hc
    have hstop : (rest.takeWhile (· ≠ '/') ++ '/' :: path).takeWhile (· ≠ '/') =
        rest.takeWhile (· ≠ '/') := by
      rw [List.takeWhile_append_of_pos hfree]
      simp
    have hother : url.toList.take 8 ++ (url.toList.drop 8).takeWhile (· ≠ '/') ++ '/' :: path =
        "https://".toList ++ (rest.takeWhile (· ≠ '/') ++ '/' :: path) := by
      rw [← hrest, ← List.append_assoc]
      rfl
    rw [relocating_https hrest.symm, hother, relocating_https String.toList_ofList, hstop]
  · right
    have hprefix : "https://".toList.isPrefixOf url.toList = false := by
      rwa [← Bool.not_eq_true, List.isPrefixOf_iff_prefix]
    simp only [relocating, hprefix]
    rfl

theorem relocating_documented : relocating.Documented where
  scheme rest := by
    rw [relocating_https String.toList_append]
  auth := by
    intro request answer next hnext hauth
    rcases relocating_next hnext with ⟨path, rfl⟩ | ⟨hnone, _⟩
    · rfl
    · exact absurd hnone hauth
  bearer := by
    intro request answer next hnext hbearer
    rcases relocating_next hnext with ⟨path, rfl⟩ | ⟨_, hnone⟩
    · exact ⟨rfl, relocating_path request.url path⟩
    · exact absurd hnone hbearer

theorem app_moved :
    let wire := (outcome (through relocating.send (getRemoteDigest "ghcr.io/team/app:1.0" none))
      movedReplies).1
    wire.map (fun exchange => (exchange.1.url, exchange.1.bearer)) =
      [("https://ghcr.io/v2/team/app/manifests/1.0", none),
        ("https://ghcr.io/v2/moved/app/manifests/1.0", none),
        ("https://ghcr.io/token", none), ("https://ghcr.io/v2/team/app/manifests/1.0", some "t1"),
        ("https://ghcr.io/v2/moved/app/manifests/1.0", some "t1"),
          ("https://cdn.example/manifest", none)] ∧
    wire.length ≤ 44 ∧ Each (Permitted relocating ⟨"ghcr.io", "team/app", "1.0"⟩ none) wire :=
  ⟨by decide +kernel,
    requests_confined relocating_documented "ghcr.io/team/app:1.0" none movedReplies⟩

end Relocation

end Keepup.Registry
