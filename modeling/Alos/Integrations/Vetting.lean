import Alos.Integrations.Retrieval

/-! # What a retrieval that returns has checked

With private networks blocked, a call that returns has passed every check there
is, whatever the resolvers and the upstream answer.

* `receive_ok` is about the loop over the chunks of the body, which may be any
  number;
* `Vetted` has one field for each check, and `retrieve_vetted` is the result.
-/

namespace Alos.Integrations

open Coop Except

section Checks

variable {lib : Library} {policy : ExternalRetrievalPolicy}

/-- What the resolution of the policy has found is public. -/
theorem rejectPrivateHostname_ok {hostname : String} {u : Unit}
    (h : rejectPrivateHostname lib hostname = .ok u) :
    ∃ found, addresses lib hostname = .ok found ∧ found ≠ [] ∧ ∀ a ∈ found, ¬ a.NonPublic := by
  simp only [rejectPrivateHostname, bind_eq_ok, require_ok] at h
  rcases h with ⟨found, hfound, hpublic⟩
  rw [not_or] at hpublic
  refine ⟨found, hfound, hpublic.1, ?_⟩
  intro a ha hnonpublic
  exact hpublic.2 ⟨a, ha, hnonpublic⟩

theorem validateDomain_ok (hblock : policy.blockPrivateNetworks = true) {hostname hostname' : String}
    (h : validateDomain lib policy hostname = .ok hostname') :
    hostname' = hostname ∧ (policy.allowedDomains = ∅ ∨ DomainAllowed policy hostname) ∧
      ∃ found, addresses lib hostname = .ok found ∧ found ≠ [] ∧ ∀ a ∈ found, ¬ a.NonPublic := by
  simp only [validateDomain, hblock, if_true, bind_eq_ok, require_ok, pure_eq_ok] at h
  rcases h with ⟨-, hdomain, u, hpublic, rfl⟩
  exact ⟨rfl, hdomain, rejectPrivateHostname_ok hpublic⟩

/-- What a URL that is valid has passed. -/
theorem validateParts_ok (hblock : policy.blockPrivateNetworks = true) {parsed : SplitResult}
    {hostname : String} (h : validateParts lib policy parsed = .ok hostname) :
    hostname = normalizedHostname lib parsed ∧
      lib.lower parsed.scheme ∈ policy.allowedProtocols ∧ Anonymous lib parsed ∧
      (policy.allowedDomains = ∅ ∨ DomainAllowed policy (normalizedHostname lib parsed)) ∧
      ∃ found, addresses lib (normalizedHostname lib parsed) = .ok found ∧ found ≠ [] ∧
        ∀ a ∈ found, ¬ a.NonPublic := by
  simp only [validateParts, hblock, true_and, bind_eq_ok, require_ok] at h
  rcases h with ⟨-, hprotocol, -, hanonymous, hrest⟩
  -- an address is looked at before the domain already, and once more after it
  have hlast : validateDomain lib policy (normalizedHostname lib parsed) = .ok hostname := by
    split at hrest
    · rcases bind_eq_ok.1 hrest with ⟨-, -, hrest⟩
      exact hrest
    · exact hrest
  rcases validateDomain_ok hblock hlast with ⟨rfl, hdomain, hpublic⟩
  exact ⟨rfl, hprotocol, hanonymous, hdomain, hpublic⟩

/-- What the injected resolver has found is public. -/
theorem rejectAddresses_ok {found : List String} {u : Unit}
    (h : rejectAddresses lib found = .ok u) :
    ∀ text ∈ found, ∃ a, lib.ipAddress text = some a ∧ ¬ a.NonPublic := by
  induction found with
  | nil => simp
  | cons text found ih =>
      simp only [rejectAddresses, bind_eq_ok] at h
      rcases h with ⟨u, hhead, htail⟩
      intro text' htext'
      rcases List.mem_cons.1 htext' with rfl | hmem
      · unfold rejectAddress at hhead
        split at hhead
        · cases hhead
        · rename_i a ha
          exact ⟨a, ha, require_ok.1 hhead⟩
      · exact ih htail text' hmem

/-- A body that is received to its end is kept as it is, and fits. -/
theorem receive_ok {interrupted : Option Exn} {rest chunks received : List Bytes} {n : ℕ}
    (hn : n ≤ policy.maxResponseBytes)
    (h : receive policy interrupted rest chunks n = .ok received) :
    interrupted = none ∧ received = chunks ++ rest ∧
      n + rest.flatten.length ≤ policy.maxResponseBytes := by
  induction rest generalizing chunks n with
  | nil =>
      unfold receive at h
      split at h
      · cases h
      · cases h
        exact ⟨rfl, by simp, by simpa using hn⟩
  -- every chunk is counted before it is kept
  | cons chunk rest ih =>
      simp only [receive, bind_eq_ok, require_ok] at h
      rcases h with ⟨-, hfits, hrest⟩
      rcases ih hfits hrest with ⟨hend, hreceived, hlength⟩
      refine ⟨hend, by simpa using hreceived, ?_⟩
      rw [List.flatten_cons, List.length_append]
      omega

theorem checkDeclared_ok {response : Response} {u : Unit}
    (h : checkDeclared lib policy response = .ok u) :
    ∀ text, response.header "content-length" = some text →
      ∃ n, lib.int text = some n ∧ n ≤ policy.maxResponseBytes := by
  intro text htext
  simp only [checkDeclared, htext] at h
  split at h
  · cases h
  · rename_i n hn
    exact ⟨n, hn, require_ok.1 h⟩

end Checks

/-- What has been checked of a call that returns `result`: of its URL, of the
addresses, and of the response. -/
structure Vetted (x : ExternalRetrievalService) (answer : (q : Question) → Answer q)
    (c : Retrieval) (result : ExternalRetrievalResult) (parsed : SplitResult)
    (response : Response) : Prop where
  scope : "scope.sources.external_read" ∈ c.scopeRefs
  split : x.lib.urlsplit c.url = some parsed
  protocol : x.lib.lower parsed.scheme ∈ x.policy.allowedProtocols
  host : normalizedHostname x.lib parsed ≠ ""
  user : parsed.username.getD "" = ""
  password : parsed.password.getD "" = ""
  domain : x.policy.allowedDomains ≠ ∅ → ∃ domain ∈ x.policy.allowedDomains,
    normalizedHostname x.lib parsed = domain ∨ IsSubdomain (normalizedHostname x.lib parsed) domain
  addresses : ∃ found, addresses x.lib (normalizedHostname x.lib parsed) = .ok found ∧
    ∀ a ∈ found, ¬ a.NonPublic
  resolver : x.hasResolver = true →
    ∃ found, answer (.resolve (normalizedHostname x.lib parsed)) = .ok found ∧
      ∀ text ∈ found, ∃ a, x.lib.ipAddress text = some a ∧ ¬ a.NonPublic
  answered : answer (.stream c.url) = .ok response
  redirect : response.isRedirect = false
  status : response.statusCode < 400
  contentType : contentType x.lib response ∈ x.policy.allowedContentTypes
  declared : ∀ text, response.header "content-length" = some text →
    ∃ n, x.lib.int text = some n ∧ n ≤ x.policy.maxResponseBytes
  received : response.interrupted = none ∧ response.closing = none
  content : result.content = response.chunks.flatten
  size : result.content.length ≤ x.policy.maxResponseBytes
  /-- The trail is ALLOWED, then SUCCESS. -/
  trail : ∃ allowed completed, (seen x answer c).events =
    [(allowed, .returned), (completed, .returned)] ∧
    allowed.outcome = "ALLOWED" ∧ completed.outcome = "SUCCESS"

section Result

variable {x : ExternalRetrievalService} {answer : (q : Question) → Answer q} {c : Retrieval}
  {result : ExternalRetrievalResult}

/-- A call that returns has come to the end of its body. -/
theorem seen_ok (h : (seen x answer c).result = .ok result) :
    ∃ parsed hostname, x.lib.urlsplit c.url = some parsed ∧ admitted x answer c = .ok hostname ∧
      fetched x answer c = .ok result ∧
      (seen x answer c).events =
        [(allowedEvent x.lib c (safeUrl x.lib parsed) hostname, .returned),
          (completedEvent x.lib c (safeUrl x.lib parsed) result, .returned)] := by
  cases hsplit : x.lib.urlsplit c.url with
  | none =>
      rw [seen_unsplit x answer c hsplit] at h
      cases h
  | some parsed =>
      rcases seen_attempted x answer c hsplit with ⟨body, hattempted, hseen⟩
      rw [hseen] at h ⊢
      -- no exception is turned into a result
      have hreport : ∀ e, (observe noted answer (report x c (safeUrl x.lib parsed) e)).result ≠
          .ok result := by
        intro e
        rw [observe_report]
        split
        · simp
        · split <;> simp
      cases hattempted with
      | completed hadmitted hsink hfetched hlast =>
          cases h
          exact ⟨parsed, _, rfl, hadmitted, hfetched, rfl⟩
      | refused => exact absurd h (hreport _)
      | unrecorded => exact absurd h (hreport _)
      | failed => exact absurd h (hreport _)
      | unfinished => exact absurd h (hreport _)

theorem retrieve_vetted (x : ExternalRetrievalService) (answer : (q : Question) → Answer q)
    (c : Retrieval) (result : ExternalRetrievalResult)
    (hblock : x.policy.blockPrivateNetworks = true)
    (h : (seen x answer c).result = .ok result) :
    ∃ parsed response, Vetted x answer c result parsed response := by
  rcases seen_ok h with ⟨parsed, hostname, hsplit, hadmitted, hfetched, htrail⟩
  simp only [admitted, bind_eq_ok, require_ok, pure_eq_ok] at hadmitted
  rcases hadmitted with ⟨-, hscope, hostname', hvalid, u, hconsulted, rfl⟩
  simp only [validateUrl, hsplit] at hvalid
  obtain ⟨rfl, hprotocol, ⟨hhost, huser, hpassword⟩, hdomain, found, hfound, -, hpublic⟩ :=
    validateParts_ok hblock hvalid
  simp only [fetched, bind_eq_ok, pure_eq_ok] at hfetched
  rcases hfetched with ⟨response, hanswered, ⟨type, content⟩, hread, rfl⟩
  -- what was read counts only when closing the response did not raise
  have hclosing : response.closing = none ∧
      readResponse x.lib x.policy response = .ok (type, content) := by
    unfold leaving at hread
    split at hread
    · cases hread
    · rename_i hclosing
      exact ⟨hclosing, hread⟩
  have hbody := hclosing.2
  simp only [readResponse, bind_eq_ok, require_ok, pure_eq_ok, Prod.mk.injEq] at hbody
  rcases hbody with ⟨-, hredirect, -, hstatus, -, htype, u', hdeclared, chunks, hreceived, -, rfl⟩
  -- all chunks together are within the limit
  rcases receive_ok (Nat.zero_le _) hreceived with ⟨hend, rfl, hsize⟩
  refine ⟨parsed, response, ?_⟩
  exact {
    scope := hscope
    split := hsplit
    protocol := hprotocol
    host := hhost
    user := huser
    password := hpassword
    domain := fun hne => hdomain.resolve_left hne
    addresses := ⟨found, hfound, hpublic⟩
    resolver := by
      intro hresolver
      simp only [consulted, hresolver, hblock, and_self, if_true, bind_eq_ok] at hconsulted
      rcases hconsulted with ⟨texts, htexts, hrejected⟩
      exact ⟨texts, htexts, rejectAddresses_ok hrejected⟩
    answered := hanswered
    redirect := by simpa using hredirect
    status := hstatus
    contentType := htype
    declared := checkDeclared_ok hdeclared
    received := ⟨hend, hclosing.1⟩
    content := by simp
    size := by simpa using hsize
    trail := ⟨_, _, htrail, rfl, rfl⟩ }

end Result

/-! ## A response in two chunks -/

/-- The service with a resolver of its own. -/
def resolvingService : ExternalRetrievalService :=
  { sampleService with
    lib := { sampleLibrary with int := fun text => if text = "11" then some 11 else none }
    hasResolver := true }

/-- The body of the upstream comes in two chunks, and its length is declared. -/
def declaredResponse : Response :=
  { sampleResponse with
    header := fun name =>
      if name = "content-type" then some "application/json; charset=utf-8"
      else if name = "content-length" then some "11"
      else none
    chunks := [[123, 34, 111, 107, 34], [58, 116, 114, 117, 101, 125]] }

def resolvedAnswers : (q : Question) → Answer q
  | .resolve _ => .ok ["93.184.215.14"]
  | .append _ => .returned
  | .stream _ => .ok declaredResponse

/-- The response of an allowed host is returned. -/
theorem retrieve_vetted_sample : ∃ parsed response,
    Vetted resolvingService resolvedAnswers (sampleRetrieval "https://example.com/data.json")
      ⟨"https://example.com/data.json", "https://example.com/data.json", 200, "application/json",
        [123, 34, 111, 107, 34, 58, 116, 114, 117, 101, 125]⟩ parsed response :=
  retrieve_vetted resolvingService resolvedAnswers
    (sampleRetrieval "https://example.com/data.json") _ rfl (by decide)

end Alos.Integrations
