import BookingPlatform.Asgi.Layers
import BookingPlatform.Strings.Json

/-!
# The hardening headers

The middleware adds them to every response that passes it. The response to an exception
that no handler of the exception layer takes is sent from outside of it.
-/

namespace BookingPlatform

set_option autoImplicit false

open Asgi Strings Strings.Json

section SecurityHeaders

/-- `b"..."`. -/
def bytesOf (s : String) : Bytes := s.toList.map fun c => c.toNat.toUInt8

/-- `bytes.lower()`, of ASCII letters. -/
def lowerBytes (b : Bytes) : Bytes := b.map fun c => if 65 ≤ c ∧ c ≤ 90 then c + 32 else c

def contentTypeOptions : Bytes × Bytes := (bytesOf "x-content-type-options", bytesOf "nosniff")

def frameOptions : Bytes × Bytes := (bytesOf "x-frame-options", bytesOf "DENY")

def referrerPolicy : Bytes × Bytes := (bytesOf "referrer-policy", bytesOf "no-referrer")

def hardening : List (Bytes × Bytes) := [contentTypeOptions, frameOptions, referrerPolicy]

def headerNames (rawHeaders : Headers) : List Bytes := rawHeaders.map fun h => lowerBytes h.1

def addIfAbsent (names : List Bytes) (header : Bytes × Bytes) (rawHeaders : Headers) : Headers :=
  if header.1 ∉ names then rawHeaders ++ [header] else rawHeaders

/-- The names are those before anything is added. -/
def withSecurityHeaders (rawHeaders : Headers) : Headers :=
  let names := headerNames rawHeaders
  addIfAbsent names referrerPolicy
    (addIfAbsent names frameOptions (addIfAbsent names contentTypeOptions rawHeaders))

def sendWithSecurityHeaders : Message → Message := Message.mapHeaders withSecurityHeaders

inductive ScopeType where
  | http
  | websocket
  | lifespan
  deriving DecidableEq, Repr

structure Scope where
  type : ScopeType
  method : Str
  headers : Headers

end SecurityHeaders

section Handlers

inductive LocItem where
  | key (name : Str)
  | index (i : Int)
  deriving DecidableEq

structure ValidationItem where
  loc : Option (List LocItem)
  msg : Option Str

/-- The exceptions by the handler that their class has, with what the handler reads. -/
inductive Raised where
  | appException (statusCode : Nat) (code message : Str) (detail : Json)
  | requestValidationError (errors : List ValidationItem)
  | httpException (statusCode : Nat) (detail : Json) (headers : Option (List (Str × Str)))
  | other (text : String)

/-- `JSONResponse`, which raises where the content or a header cannot be encoded. -/
abbrev JsonResponse := Nat → Json → Option (List (Str × Str)) → Option Response

variable (jsonResponse : JsonResponse)

def statusToCode : Nat → Str
  | 400 => points "BAD_REQUEST"
  | 401 => points "UNAUTHORIZED"
  | 403 => points "FORBIDDEN"
  | 404 => points "NOT_FOUND"
  | 409 => points "CONFLICT"
  | 422 => points "VALIDATION_ERROR"
  | 500 => points "INTERNAL_SERVER_ERROR"
  | 503 => points "SERVICE_UNAVAILABLE"
  | statusCode => points ("HTTP_" ++ toString statusCode)

def errorContent (code message : Str) (detail : Json) : Json :=
  .object [(points "code", .string code), (points "message", .string message),
    (points "detail", detail)]

def appExceptionHandler (statusCode : Nat) (code message : Str) (detail : Json) :
    Option Response :=
  jsonResponse statusCode (errorContent code message detail) none

def LocItem.str : LocItem → Str
  | .key name => name
  | .index i => points (toString i)

def formattedError (err : ValidationItem) : Json :=
  let fieldParts := ((err.loc.getD []).filter (· ≠ .key (points "body"))).map LocItem.str
  let field := if fieldParts ≠ [] then [46].intercalate fieldParts else points "request"
  let msg := err.msg.getD (points "Invalid value")
  let msg := if (points "Value error, ").isPrefixOf msg then msg.drop 13 else msg
  .object [(points "field", .string field), (points "message", .string msg)]

def validationExceptionHandler (errors : List ValidationItem) : Option Response :=
  jsonResponse 422 (errorContent (points "VALIDATION_ERROR")
    (points "Request validation failed.") (.array (errors.map formattedError))) none

def httpExceptionHandler (statusCode : Nat) (detail : Json) (headers : Option (List (Str × Str))) :
    Option Response :=
  let message := match detail with
    | .string s => s
    | _ => points "An error occurred."
  jsonResponse statusCode (errorContent (statusToCode statusCode) message detail) headers

def unhandledExceptionHandler : Option Response :=
  jsonResponse 500 (errorContent (points "INTERNAL_SERVER_ERROR")
    (points "An internal server error occurred.") .null) none

/-- The registered handler for the class, and what it makes of the exception. -/
def exceptionHandler? : Raised → Option (Option Response)
  | .appException statusCode code message detail =>
    some (appExceptionHandler jsonResponse statusCode code message detail)
  | .requestValidationError errors => some (validationExceptionHandler jsonResponse errors)
  | .httpException statusCode detail headers =>
    some (httpExceptionHandler jsonResponse statusCode detail headers)
  | .other _ => none

end Handlers

section Stack
variable (jsonResponse : JsonResponse)

/-- An exception after the start of the response, or of the handler itself, is another one. -/
def exceptionLayer (run : Run Raised) : Run Raised :=
  match run.raised with
  | none => run
  | some exc =>
    match exceptionHandler? jsonResponse exc with
    | none => run
    | some response =>
      if run.Started then { run with raised := some (.other "RuntimeError") }
      else
        match response with
        | none => { run with raised := some (.other "while handling") }
        | some r => run.respond r none

/-- CORSMiddleware answers a preflight request itself; otherwise it lets exceptions pass and
sets headers of the response. -/
structure CorsMiddleware where
  preflight : Scope → Option Response
  simpleHeaders : Scope → Headers → Headers

def CorsMiddleware.call (cors : CorsMiddleware) (app : Scope → Run Raised) (scope : Scope) :
    Run Raised :=
  match cors.preflight scope with
  | some r => .answer r
  | none => (app scope).mapHeaders (cors.simpleHeaders scope)

def securityHeadersMiddleware (app : Scope → Run Raised) (scope : Scope) : Run Raised :=
  if scope.type ≠ .http then app scope
  else
    let run := app scope
    { run with sent := run.sent.map sendWithSecurityHeaders }

/-- The outermost layer raises every exception again, after a response where there was none. -/
def serverErrorLayer (run : Run Raised) : Run Raised :=
  if run.raised.isNone || run.Started then run
  else
    match unhandledExceptionHandler jsonResponse with
    | none => run
    | some r => run.respond r run.raised

/-- What `SecurityHeadersMiddleware` wraps. -/
def wrapped (cors : CorsMiddleware) (router : Scope → Run Raised) : Scope → Run Raised :=
  cors.call fun scope => exceptionLayer jsonResponse (router scope)

def application (cors : CorsMiddleware) (router : Scope → Run Raised) (scope : Scope) :
    Run Raised :=
  serverErrorLayer jsonResponse
    (securityHeadersMiddleware (wrapped jsonResponse cors router) scope)

end Stack

section Adding

theorem addIfAbsent_eq (names : List Bytes) (h : Bytes × Bytes) (rawHeaders : Headers) :
    addIfAbsent names h rawHeaders = rawHeaders ++ [h].filter fun h => h.1 ∉ names := by
  unfold addIfAbsent
  by_cases hmem : h.1 ∈ names
  · simp [hmem]
  · simp [hmem]

theorem withSecurityHeaders_eq (rawHeaders : Headers) :
    withSecurityHeaders rawHeaders =
      rawHeaders ++ hardening.filter fun h => h.1 ∉ headerNames rawHeaders := by
  have hsplit : hardening = [contentTypeOptions] ++ [frameOptions] ++ [referrerPolicy] := rfl
  unfold withSecurityHeaders
  dsimp only
  rw [addIfAbsent_eq, addIfAbsent_eq, addIfAbsent_eq, hsplit, List.filter_append,
    List.filter_append, List.append_assoc, List.append_assoc, List.append_assoc]

theorem lowerBytes_hardening : ∀ h ∈ hardening, lowerBytes h.1 = h.1 := by decide

theorem mem_headerNames {h : Bytes × Bytes} (hh : h ∈ hardening) (rawHeaders : Headers) :
    h.1 ∈ headerNames (withSecurityHeaders rawHeaders) := by
  rw [withSecurityHeaders_eq]
  unfold headerNames
  rw [List.map_append]
  by_cases hmem : h.1 ∈ rawHeaders.map fun h => lowerBytes h.1
  · exact List.mem_append_left _ hmem
  · apply List.mem_append_right
    refine List.mem_map.mpr ⟨h, List.mem_filter.mpr ⟨hh, ?_⟩, lowerBytes_hardening h hh⟩
    exact decide_eq_true hmem

end Adding

section Responses
variable {jsonResponse : JsonResponse} {cors : CorsMiddleware} {router : Scope → Run Raised}
  {scope : Scope}

/-- The response that leaves has the three headers, and all those of the inner response before
the ones that were added because their name was absent. -/
def CarriesSecurityHeaders (inner outer : Run Raised) : Prop :=
  ∃ status headers, outer.response? = some (status, headers) ∧
    (∀ h ∈ hardening, h.1 ∈ headerNames headers) ∧
    ∀ response, inner.response? = some response → status = response.1 ∧
      headers = response.2 ++ hardening.filter fun h => h.1 ∉ headerNames response.2

/-- The response is sent from within the middleware: it is CORSMiddleware's own, or has been
started, or is made of the exception by a handler of the exception layer. -/
def AnsweredWithin (jsonResponse : JsonResponse) (cors : CorsMiddleware)
    (router : Scope → Run Raised) (scope : Scope) : Prop :=
  (cors.preflight scope).isSome ∨ (router scope).Started ∨
    ∀ exc, (router scope).raised = some exc →
      ∃ r, exceptionHandler? jsonResponse exc = some (some r)

/-- A JSON response without headers of its own states its length and type. The response to an
unexpected error can be encoded. -/
structure LawfulJsonResponse (jsonResponse : JsonResponse) : Prop where
  plain : ∀ statusCode content r, jsonResponse statusCode content none = some r →
    ∀ h ∈ r.headers, h.1 = bytesOf "content-length" ∨ h.1 = bytesOf "content-type"
  serverError : (unhandledExceptionHandler jsonResponse).isSome = true

theorem securityHeadersMiddleware_http (hscope : scope.type = .http)
    (app : Scope → Run Raised) :
    securityHeadersMiddleware app scope = (app scope).mapHeaders withSecurityHeaders := by
  unfold securityHeadersMiddleware
  rw [if_neg (not_not.mpr hscope)]
  rfl

theorem exceptionLayer_of_answered {run : Run Raised} {exc : Raised} {r : Response}
    (hraised : run.raised = some exc) (hstarted : ¬ run.Started)
    (hhandler : exceptionHandler? jsonResponse exc = some (some r)) :
    exceptionLayer jsonResponse run = run.respond r none := by
  unfold exceptionLayer
  rw [hraised]
  dsimp only
  rw [hhandler]
  exact if_neg hstarted

/-- Otherwise an exception leaves the layer, and nothing has been sent by it. -/
theorem exceptionLayer_of_unanswered {run : Run Raised} {exc : Raised}
    (hraised : run.raised = some exc)
    (hno : run.Started ∨ ¬ ∃ r, exceptionHandler? jsonResponse exc = some (some r)) :
    (exceptionLayer jsonResponse run).sent = run.sent ∧
      (exceptionLayer jsonResponse run).raised.isSome = true := by
  unfold exceptionLayer
  rw [hraised]
  dsimp only
  cases hhandler : exceptionHandler? jsonResponse exc with
  | none => exact ⟨rfl, by rw [hraised]; rfl⟩
  | some response =>
    dsimp only
    by_cases hstarted : run.Started
    · rw [if_pos hstarted]
      exact ⟨rfl, rfl⟩
    · rw [if_neg hstarted]
      cases response with
      | none => exact ⟨rfl, rfl⟩
      | some r => exact absurd ⟨r, hhandler⟩ (hno.resolve_left hstarted)

/-- A response that leaves the exception layer: the router's, or a handler's. -/
theorem started_exceptionLayer {run : Run Raised}
    (hends : run.Started ∨ run.raised.isSome = true) :
    (exceptionLayer jsonResponse run).Started ↔ run.Started ∨
      ∀ exc, run.raised = some exc → ∃ r, exceptionHandler? jsonResponse exc = some (some r) := by
  cases hraised : run.raised with
  | none =>
    have hlayer : exceptionLayer jsonResponse run = run := by
      unfold exceptionLayer
      rw [hraised]
    rw [hlayer]
    rw [hraised] at hends
    have hstarted := hends.resolve_right Bool.false_ne_true
    exact ⟨.inl, fun _ => hstarted⟩
  | some exc =>
    by_cases hstarted : run.Started
    · refine iff_of_true ?_ (.inl hstarted)
      apply (Run.started_congr ?_).mpr hstarted
      exact (exceptionLayer_of_unanswered hraised (.inl hstarted)).1
    · by_cases hhandler : ∃ r, exceptionHandler? jsonResponse exc = some (some r)
      · refine iff_of_true ?_ (.inr ?_)
        · obtain ⟨r, hr⟩ := hhandler
          rw [exceptionLayer_of_answered hraised hstarted hr]
          exact Run.started_respond hstarted none
        · rintro e ⟨⟩
          exact hhandler
      · have hsent := (exceptionLayer_of_unanswered hraised (.inr hhandler)).1
        rw [Run.started_congr hsent]
        refine iff_of_false hstarted ?_
        rintro (h | h)
        · exact hstarted h
        · exact hhandler (h exc rfl)

theorem raised_exceptionLayer {run : Run Raised}
    (hends : run.Started ∨ run.raised.isSome = true)
    (h : ¬ (exceptionLayer jsonResponse run).Started) :
    (exceptionLayer jsonResponse run).raised.isSome = true := by
  rw [started_exceptionLayer hends, not_or] at h
  obtain ⟨hstarted, hunhandled⟩ := h
  obtain ⟨exc, hraised⟩ := Option.isSome_iff_exists.mp (hends.resolve_left hstarted)
  refine (exceptionLayer_of_unanswered hraised (.inr fun hhandler => hunhandled ?_)).2
  intro e he
  rw [hraised] at he
  cases he
  exact hhandler

/-- Every router ends in a response or in an exception; so does what the middleware wraps. -/
theorem started_wrapped (hends : (router scope).Started ∨ (router scope).raised.isSome = true) :
    (wrapped jsonResponse cors router scope).Started ↔
      AnsweredWithin jsonResponse cors router scope := by
  unfold wrapped CorsMiddleware.call AnsweredWithin
  cases hpreflight : cors.preflight scope with
  | some r => exact iff_of_true rfl (.inl rfl)
  | none =>
    dsimp only
    rw [Run.started_mapHeaders, started_exceptionLayer hends]
    simp

theorem raised_wrapped (hends : (router scope).Started ∨ (router scope).raised.isSome = true)
    (h : ¬ (wrapped jsonResponse cors router scope).Started) :
    (wrapped jsonResponse cors router scope).raised.isSome = true := by
  unfold wrapped CorsMiddleware.call at h ⊢
  cases hpreflight : cors.preflight scope with
  | some r =>
    rw [hpreflight] at h
    exact absurd rfl h
  | none =>
    rw [hpreflight] at h
    dsimp only at h ⊢
    rw [Run.started_mapHeaders] at h
    exact raised_exceptionLayer hends h

/-- The response of the server-error layer has none of the three. -/
theorem not_carries_of_not_started (hlawful : LawfulJsonResponse jsonResponse)
    {inner run : Run Raised} (hraised : run.raised.isSome = true) (hstarted : ¬ run.Started) :
    ¬ CarriesSecurityHeaders inner (serverErrorLayer jsonResponse run) := by
  obtain ⟨r, hr⟩ := Option.isSome_iff_exists.mp hlawful.serverError
  have hsome : run.raised.isNone = false := Option.isNone_eq_false_iff.mpr hraised
  have hlayer : serverErrorLayer jsonResponse run = run.respond r run.raised := by
    unfold serverErrorLayer
    rw [hr, if_neg (by simp [hsome, hstarted])]
  rintro ⟨status, headers, hresponse, hnames, _⟩
  rw [hlayer, Run.response?_respond hstarted] at hresponse
  cases hresponse
  have hname := hnames contentTypeOptions (by decide)
  obtain ⟨h, hmem, heq⟩ := List.mem_map.mp hname
  rcases hlawful.plain _ _ _ hr h hmem with hh | hh
  · rw [hh] at heq
    exact absurd heq (by decide)
  · rw [hh] at heq
    exact absurd heq (by decide)

theorem carries_of_started {run : Run Raised} (hstarted : run.Started) :
    CarriesSecurityHeaders run
      (serverErrorLayer jsonResponse (run.mapHeaders withSecurityHeaders)) := by
  have hlayer : serverErrorLayer jsonResponse (run.mapHeaders withSecurityHeaders) =
      run.mapHeaders withSecurityHeaders := by
    unfold serverErrorLayer
    rw [if_pos (by simp [hstarted])]
  obtain ⟨⟨status, kept⟩, hresponse⟩ := Option.isSome_iff_exists.mp hstarted
  refine ⟨status, withSecurityHeaders kept, ?_, fun h hh => mem_headerNames hh kept, ?_⟩
  · rw [hlayer, Run.response?_mapHeaders, hresponse]
    rfl
  · intro response hinner
    rw [hresponse] at hinner
    cases hinner
    exact ⟨rfl, withSecurityHeaders_eq kept⟩

/-- The headers are on the responses that are sent from within the middleware. -/
theorem security_headers_iff (jsonResponse : JsonResponse)
    (hlawful : LawfulJsonResponse jsonResponse) (cors : CorsMiddleware)
    (router : Scope → Run Raised) (scope : Scope) (hscope : scope.type = .http)
    (hends : (router scope).Started ∨ (router scope).raised.isSome = true) :
    CarriesSecurityHeaders (wrapped jsonResponse cors router scope)
        (application jsonResponse cors router scope) ↔
      AnsweredWithin jsonResponse cors router scope := by
  rw [← started_wrapped hends]
  unfold application
  rw [securityHeadersMiddleware_http hscope]
  constructor
  · intro hcarries
    by_contra hstarted
    refine not_carries_of_not_started hlawful ?_ ?_ hcarries
    · exact raised_wrapped hends hstarted
    · rwa [Run.started_mapHeaders]
  · exact carries_of_started

/-- A stand-in that writes objects of strings and nulls. -/
def plainMember : Str × Json → Option Str
  | (name, .null) => some (dumpsString name ++ points ":null")
  | (name, .string s) => some (dumpsString name ++ 58 :: dumpsString s)
  | _ => none

def plainJsonResponse : JsonResponse := fun statusCode content headers => do
  let .object ms := content | none
  let members ← ms.mapM plainMember
  let body := (points "\x7b" ++ [44].intercalate members ++ points "\x7d").map Nat.toUInt8
  let own := (headers.getD []).map fun h => (lowerBytes (h.1.map Nat.toUInt8), h.2.map Nat.toUInt8)
  pure ⟨statusCode, own ++ [(bytesOf "content-length", bytesOf (toString body.length)),
    (bytesOf "content-type", bytesOf "application/json")], body⟩

theorem plainJsonResponse_lawful : LawfulJsonResponse plainJsonResponse where
  plain statusCode content r hr := by
    unfold plainJsonResponse at hr
    cases content with
    | object ms =>
      obtain ⟨members, _, hr⟩ := Option.bind_eq_some_iff.mp hr
      cases hr
      intro h hmem
      rcases List.mem_cons.mp hmem with rfl | hmem
      · exact .inl rfl
      · rw [List.mem_singleton.mp hmem]
        exact .inr rfl
    | _ => cases hr
  serverError := rfl

def sameOrigin : CorsMiddleware := ⟨fun _ => none, fun _ headers => headers⟩

def getRequest : Scope := ⟨.http, points "GET", []⟩

/-- A page that chooses its own frame options, in capitals. -/
def framedPage : Run Raised :=
  .answer ⟨200, [(bytesOf "X-Frame-Options", bytesOf "SAMEORIGIN")], bytesOf "ok"⟩

theorem security_headers_iff_framedPage :
    CarriesSecurityHeaders (wrapped plainJsonResponse sameOrigin (fun _ => framedPage) getRequest)
      (application plainJsonResponse sameOrigin (fun _ => framedPage) getRequest) :=
  (security_headers_iff plainJsonResponse plainJsonResponse_lawful sameOrigin
    (fun _ => framedPage) getRequest rfl (.inl rfl)).mpr (.inr (.inl rfl))

/-- An unexpected error: the client is answered, without the headers. -/
theorem unhandled_error_bare :
    let crash : Scope → Run Raised := fun _ => ⟨[], some (.other "RuntimeError")⟩
    let leaving := application plainJsonResponse sameOrigin crash getRequest
    leaving.response?.map Prod.fst = some 500 ∧
      ¬ CarriesSecurityHeaders (wrapped plainJsonResponse sameOrigin crash getRequest) leaving := by
  constructor
  · rfl
  · exact not_carries_of_not_started plainJsonResponse_lawful rfl (by decide)

end Responses

end BookingPlatform
