import AlmenaMediator.Transport.Addresses

/-!
# Outbound requests

`HttpTransport` of `transport.rs`: the check of the first URL, the redirect policy, the https-only
flag and the resolver of public addresses. The `url` crate is a parameter (`Urls`), and what the
network does at each request, the answers of hostile servers included, is arbitrary (`Exchange`). Of
`reqwest` it is taken that it follows the redirects the policy follows, that its https-only client
refuses other schemes, and that it asks the resolver for host names only.

## Main results

* `mem_contacted_iff`: the URLs contacted are the first one and those that temporary redirects lead
  to;
* `contacted_allowed_iff`: all of them pass the check exactly when no redirect led to an IP literal.
-/

namespace Transport

/-- `url::Host`. -/
inductive Host
  | domain (name : String)
  | ip (ip : IpAddr)
  deriving DecidableEq, Repr

/-- `reqwest::Url`, as far as the transport looks at it; `href` is the whole of it. -/
structure Url where
  href : String
  scheme : String
  host : Option Host
  deriving DecidableEq, Repr

/-- The `url` crate: parsing, and resolving a `Location` against the URL that answered. -/
structure Urls where
  parse : String → Option Url
  join : Url → String → Option Url

/-- An HTTP response. -/
structure Response where
  status : ℕ
  location : Option String
  body : String
  deriving DecidableEq, Repr

/-- What the network does at one request: the addresses DNS returns for the host, and the answer, if
one arrives in time. -/
structure Exchange where
  addrs : List IpAddr
  answer : Option Response
  deriving DecidableEq, Repr

/-- `reqwest::Client`, as the builder sets it up. -/
structure Client where
  httpsOnly : Bool
  publicOnlyResolver : Bool
  deriving DecidableEq, Repr

/-- `HttpTransport`. -/
structure HttpTransport where
  client : Client
  allowInsecure : Bool
  deriving DecidableEq, Repr

/-- `HttpTransport::new`. -/
def HttpTransport.new (allowInsecure : Bool) : HttpTransport where
  client := { httpsOnly := !allowInsecure, publicOnlyResolver := !allowInsecure }
  allowInsecure := allowInsecure

/-- The redirect policy: whether an attempt is followed; `previous` are the URLs requested so
far. -/
def follows (status : ℕ) (previous : List Url) : Bool := status == 307 && previous.length < 3

variable (urls : Urls)

/-- `HttpTransport::check`. -/
def HttpTransport.check (transport : HttpTransport) (url : String) : Except String Url :=
  match urls.parse url with
  | none => .error s!"invalid URL {url}"
  | some url =>
    if transport.allowInsecure then
      if url.scheme = "https" ∨ url.scheme = "http" then .ok url
      else .error s!"unsupported scheme in {url.href}"
    else if url.scheme ≠ "https" then .error s!"only https URLs are allowed: {url.href}"
    else
      match url.host with
      | some (.domain _) => .ok url
      | some (.ip _) => .error s!"IP-literal hosts are not allowed: {url.href}"
      | none => .error s!"URL without host: {url.href}"

/-! ## The client -/

/-- Whether the client gets to connect: a host name needs an address its resolver yields, an IP
literal needs none. -/
def Client.connects (client : Client) (url : Url) (addrs : List IpAddr) : Bool :=
  match url.host with
  | some (.domain _) => if client.publicOnlyResolver then (publicOnly
      addrs).isSome else !addrs.isEmpty
  | some (.ip _) => true
  | none => false

/-- Where a response asks the client to go. -/
def Response.target (response : Response) (url : Url) : Option Url :=
  if response.status ∈ [301, 302, 303, 307, 308] then response.location.bind
    (urls.join url) else none

/-- What came of a request: the URLs it was sent to, and the last response. -/
structure Sent where
  contacted : List Url
  response : Option Response
  deriving DecidableEq, Repr

/-- `send`, from the URL on that comes after `previous`. -/
def Client.send (client : Client) (net : ℕ → Exchange) (previous : List Url) (url : Url) : Sent :=
  if client.httpsOnly && url.scheme != "https" then ⟨[], none⟩
  else if !client.connects url (net previous.length).addrs then ⟨[], none⟩
  else
    match (net previous.length).answer with
    | none => ⟨[url], none⟩
    | some response =>
      match response.target urls url with
      | none => ⟨[url], some response⟩
      | some next =>
        if follows response.status (previous ++ [url]) then
          let sent := client.send net (previous ++ [url]) next
          { sent with contacted := url :: sent.contacted }
        else ⟨[url], some response⟩
termination_by 3 - previous.length
decreasing_by
  rename_i hfollows
  simp only [follows, List.length_append, List.length_singleton, Bool.and_eq_true,
    decide_eq_true_eq] at hfollows ⊢
  omega

/-- `get_json`, with the URLs it contacts; `json` is `serde_json`. -/
def HttpTransport.getJson {J : Type*} (json : String → Option J) (transport : HttpTransport)
    (net : ℕ → Exchange) (url : String) : List Url × Except String J :=
  match transport.check urls url with
  | .error message => ([], .error message)
  | .ok url =>
    let sent := transport.client.send urls net [] url
    (sent.contacted,
      match sent.response with
      | none => .error s!"error sending request for url ({url.href})"
      | some response =>
        if 400 ≤ response.status ∧ response.status < 600 then
          .error s!"HTTP status error ({response.status}) for url ({url.href})"
        else
          match json response.body with
          | none => .error s!"reading JSON from {url.href}"
          | some value => .ok value)

/-- `post_didcomm`, with the URLs it contacts. -/
def HttpTransport.postDidcomm (transport : HttpTransport) (net : ℕ → Exchange) (url : String) :
    List Url × Except String Unit :=
  match transport.check urls url with
  | .error message => ([], .error message)
  | .ok url =>
    let sent := transport.client.send urls net [] url
    (sent.contacted,
      match sent.response with
      | none => .error s!"error sending request for url ({url.href})"
      | some response =>
        if 200 ≤ response.status ∧ response.status < 300 then .ok ()
        else .error s!"{url.href} answered {response.status}")

/-! ## What is contacted -/

/-- What the check of the strict transport asks of a URL. -/
def Url.Allowed (url : Url) : Prop := url.scheme = "https" ∧ ∃ name, url.host = some (.domain name)

/-- The host is an IP literal. -/
def Url.Literal (url : Url) : Prop := ∃ ip, url.host = some (.ip ip)

/-- The strict transport. -/
abbrev strict : HttpTransport := .new false

/-- After `n` answers, temporary redirects to https URLs have led from `start` to `url`. -/
inductive Redirected (net : ℕ → Exchange) (start : Url) : ℕ → Url → Prop
  | start : Redirected net start 0 start
  | follow {n : ℕ} {url next : Url} {response : Response} (h : Redirected net start n url)
      (hconnects : strict.client.connects url (net n).addrs = true)
      (hanswer : (net n).answer = some response) (hstatus : response.status = 307)
      (htarget : response.target urls url = some next) (hscheme : next.scheme = "https") :
      Redirected net start (n + 1) next

variable {urls} {net : ℕ → Exchange}

/-- The strict check lets a text through exactly when it parses as an allowed URL. -/
theorem check_strict_eq_ok {url : String} {start : Url} :
    strict.check urls url = .ok start ↔ urls.parse url = some start ∧ start.Allowed := by
  unfold HttpTransport.check Url.Allowed
  cases hparse : urls.parse url with
  | none => simp
  | some parsed =>
    by_cases hscheme : parsed.scheme = "https"
    · rcases hhost : parsed.host with _ | name | ip
      all_goals simp [HttpTransport.new, hscheme, hhost]
      all_goals grind
    · simp [HttpTransport.new, hscheme]
      grind

variable (urls net) in
/-- The URL a client at `url` goes to next, `previous` being behind it. -/
def onward (previous : List Url) (url : Url) : Option Url :=
  (net previous.length).answer.bind fun response =>
    (response.target urls url).filter fun _ => follows response.status (previous ++ [url])

/-- One request of the strict client: it contacts the URL, when it is an https one it can connect
to, and goes on from there. -/
theorem contacted_send (previous : List Url) (url : Url) :
    (strict.client.send urls net previous url).contacted =
      if url.scheme = "https" ∧ strict.client.connects url (net previous.length).addrs = true then
        url :: ((onward urls net previous url).map fun next =>
          (strict.client.send urls net (previous ++ [url]) next).contacted).getD []
      else [] := by
  rw [Client.send]
  by_cases hscheme : url.scheme = "https"
  case neg => simp [HttpTransport.new, hscheme]
  by_cases hconnects : strict.client.connects url (net previous.length).addrs = true
  case neg => simp [hscheme, hconnects]
  simp only [hscheme, hconnects, bne_self_eq_false, Bool.and_false,
    Bool.not_true, Bool.false_eq_true, if_false, and_self, if_true, onward]
  -- the URL is contacted; what follows depends on the answer alone
  cases (net previous.length).answer with
  | none => rfl
  | some response =>
    cases htarget : response.target urls url with
    | none => simp [htarget]
    | some next =>
      by_cases hfollows : follows response.status (previous ++ [url]) = true
      · simp [htarget, Option.filter, hfollows]
      · simp [htarget, Option.filter, hfollows]

/-- The client goes on to another URL exactly when it is answered with a 307 to that URL and two
hops are not used up yet. -/
theorem onward_eq_some {previous : List Url} {url next : Url} :
    onward urls net previous url = some next ↔ previous.length < 2 ∧ ∃ response,
      (net previous.length).answer = some response ∧ response.status = 307 ∧
        response.target urls url = some next := by
  simp only [onward, Option.bind_eq_some_iff, Option.filter_eq_some_iff,
    follows, List.length_append, List.length_singleton, Bool.and_eq_true,
      beq_iff_eq, decide_eq_true_eq]
  constructor
  · rintro ⟨response, hanswer, htarget, hstatus, hlt⟩
    exact ⟨by omega, response, hanswer, hstatus, htarget⟩
  · rintro ⟨hlt, response, hanswer, hstatus, htarget⟩
    exact ⟨response, hanswer, htarget, hstatus, by omega⟩

/-- The strict client contacts https URLs only, redirects included. -/
theorem scheme_of_mem_send {previous : List Url} {url u : Url}
    (hu : u ∈ (strict.client.send urls net previous url).contacted) : url.scheme = "https" := by
  rw [contacted_send] at hu
  split at hu
  · rename_i h
    exact h.1
  · nomatch hu

/-- What the strict client contacts is https, connected to, and led to by temporary redirects. -/
theorem redirected_of_mem_send {start : Url} (previous : List Url) (url : Url)
    (hlt : previous.length < 3) (hred : Redirected urls net start previous.length url) :
    ∀ u ∈ (strict.client.send urls net previous url).contacted, u.scheme = "https" ∧
      ∃ n < 3, Redirected urls net start n u ∧ strict.client.connects u (net n).addrs = true := by
  intro u hu
  rw [contacted_send] at hu
  split at hu
  case isFalse => nomatch hu
  case isTrue h =>
    obtain ⟨hscheme, hconnects⟩ := h
    rcases List.mem_cons.mp hu with rfl | hu
    · exact ⟨hscheme, previous.length, hlt, hred, hconnects⟩
    -- it is contacted later on, so a redirect was followed from here
    · rcases hnext : onward urls net previous url with _ | next
      · rw [hnext] at hu
        nomatch hu
      · rw [hnext, Option.map_some, Option.getD_some] at hu
        obtain ⟨hroom, response, hanswer, hstatus, htarget⟩ := onward_eq_some.mp hnext
        have hlength : (previous ++ [url]).length = previous.length + 1 := by simp
        refine redirected_of_mem_send (previous ++ [url]) next (by omega) ?_ u hu
        rw [hlength]
        exact .follow hred hconnects hanswer hstatus htarget (scheme_of_mem_send hu)
termination_by 3 - previous.length
decreasing_by
  rw [hlength]
  omega

/-- What temporary redirects lead to is contacted: the client is on its way there. -/
theorem Redirected.send_subset {start url : Url} {n : ℕ} (hred : Redirected urls net start n url)
    (hlt : n < 3) (hstart : start.scheme = "https") : url.scheme = "https" ∧ ∃ previous : List Url,
      previous.length = n ∧ (strict.client.send urls net previous url).contacted ⊆
        (strict.client.send urls net [] start).contacted := by
  induction hred with
  | start => exact ⟨hstart, [], rfl, List.Subset.refl _⟩
  | @follow n url next response hred hconnects hanswer hstatus htarget hnext ih =>
    obtain ⟨hscheme, previous, rfl, hsub⟩ := ih (by omega)
    refine ⟨hnext, previous ++ [url], by simp, fun u hu => hsub ?_⟩
    have honward : onward urls net previous url = some next :=
      onward_eq_some.mpr ⟨by omega, response, hanswer, hstatus, htarget⟩
    rw [contacted_send, if_pos ⟨hscheme, hconnects⟩, honward, Option.map_some, Option.getD_some]
    exact List.mem_cons_of_mem _ hu

/-- The URLs contacted are those that at most two temporary redirects to https URLs lead to, as far
as the client gets to connect. -/
theorem mem_contacted_iff {start : Url} (hstart : start.scheme = "https") {u : Url} :
    u ∈ (strict.client.send urls net [] start).contacted ↔
      ∃ n < 3, Redirected urls net start n u ∧ strict.client.connects u (net n).addrs = true := by
  constructor
  · exact fun hu => (redirected_of_mem_send [] start (by decide) .start u hu).2
  · rintro ⟨n, hlt, hred, hconnects⟩
    obtain ⟨hscheme, previous, rfl, hsub⟩ := hred.send_subset hlt hstart
    refine hsub ?_
    rw [contacted_send, if_pos ⟨hscheme, hconnects⟩]
    exact List.mem_cons_self

/-- Whether each URL after the first is where a temporary redirect of the one before led; the answer
to the first came from exchange `offset`. -/
def TemporaryOnly (urls : Urls) (net : ℕ → Exchange) (offset : ℕ) (contacted : List Url) : Prop :=
  ∀ i u v, contacted[i]? = some u → contacted[i + 1]? = some v → ∃ response,
    (net (offset + i)).answer = some response ∧ response.status = 307 ∧
      response.target urls u = some v

/-- The first URL a request contacts is the one it was sent to. -/
theorem eq_of_contacted_zero {previous : List Url} {url v : Url}
    (h : (strict.client.send urls net previous url).contacted[0]? = some v) : v = url := by
  rw [contacted_send] at h
  split at h
  · exact (Option.some.inj h).symm
  · nomatch h

/-- The strict client follows a 307 and no other redirect. -/
theorem temporaryOnly_send (previous : List Url) (url : Url) :
    TemporaryOnly urls net previous.length (strict.client.send urls net
      previous url).contacted := by
  intro i u v hu hv
  rw [contacted_send] at hu hv
  split at hv
  case isFalse => nomatch hv
  case isTrue h =>
    rw [if_pos h] at hu
    rcases hnext : onward urls net previous url with _ | next
    · simp [hnext] at hv
    rw [hnext, Option.map_some, Option.getD_some] at hu hv
    obtain ⟨hroom, response, hanswer, hstatus, htarget⟩ := onward_eq_some.mp hnext
    rw [List.getElem?_cons_succ] at hv
    cases i with
    | zero =>
      obtain rfl := Option.some.inj hu
      exact ⟨response, hanswer, hstatus, eq_of_contacted_zero hv ▸ htarget⟩
    | succ i =>
      -- later on it is the rest of the run that went there
      rw [List.getElem?_cons_succ] at hu
      obtain ⟨later, hlater⟩ := temporaryOnly_send (previous ++ [url]) next i u v hu hv
      rw [List.length_append, List.length_singleton, Nat.add_assoc, Nat.add_comm 1] at hlater
      exact ⟨later, hlater⟩
termination_by 3 - previous.length
decreasing_by
  rw [List.length_append, List.length_singleton]
  omega

variable (urls net) in
/-- The URLs `get_json` and `post_didcomm` contact. -/
def HttpTransport.contacted (transport : HttpTransport) (url : String) : List Url :=
  match transport.check urls url with
  | .error _ => []
  | .ok url => (transport.client.send urls net [] url).contacted

/-- Fetching a document contacts the URLs of its one request. -/
theorem getJson_contacted {J : Type*} (json : String → Option J) (transport : HttpTransport)
    (url : String) :
    (transport.getJson urls json net url).1 = transport.contacted urls net url := by
  unfold HttpTransport.getJson HttpTransport.contacted
  split <;> rfl

/-- Posting a message contacts the URLs of its one request. -/
theorem postDidcomm_contacted (transport : HttpTransport) (url : String) :
    (transport.postDidcomm urls net url).1 = transport.contacted urls net url := by
  unfold HttpTransport.postDidcomm HttpTransport.contacted
  split <;> rfl

/-- The outbound policy: what is contacted passes the check, and only temporary redirects are
followed. -/
def Policy (urls : Urls) (net : ℕ → Exchange) (contacted : List Url) : Prop :=
  (∀ u ∈ contacted, u.Allowed) ∧ TemporaryOnly urls net 0 contacted

/-- The policy of the client is kept on a request exactly when no redirect of it leads to an IP
literal. -/
theorem policy_contacted_iff (url : String) : Policy urls net (strict.contacted urls net url) ↔
    ∀ start, strict.check urls url = .ok start →
      ∀ n < 3, ∀ u, Redirected urls net start n u → ¬ u.Literal := by
  cases hcheck : strict.check urls url with
  | error message =>
    simp only [HttpTransport.contacted, hcheck, reduceCtorEq, false_imp_iff, implies_true, iff_true]
    exact ⟨nofun, nofun⟩
  | ok start =>
    have hstart := (check_strict_eq_ok.mp hcheck).2.1
    simp only [HttpTransport.contacted, hcheck, Except.ok.injEq, forall_eq']
    refine ⟨fun h n hn u hred hliteral => ?_, fun h =>
      ⟨fun u hu => ?_, temporaryOnly_send [] start⟩⟩
    · -- nothing stands between the client and an IP literal
      obtain ⟨ip, hip⟩ := hliteral
      have hconnects : strict.client.connects u (net n).addrs = true := by
        simp [Client.connects, hip]
      obtain ⟨-, name, hname⟩ := h.1 u ((mem_contacted_iff hstart).mpr ⟨n, hn, hred, hconnects⟩)
      rw [hip] at hname
      nomatch hname
    -- every URL contacted was reached by redirects, and none of those is a literal
    · obtain ⟨hscheme, n, hn, hred, hconnects⟩ :=
        redirected_of_mem_send [] start (by decide) .start u hu
      refine ⟨hscheme, ?_⟩
      rcases hhost : u.host with _ | name | ip
      · simp [Client.connects, hhost] at hconnects
      · exact ⟨name, rfl⟩
      · exact absurd ⟨ip, hhost⟩ (h n hn u hred)

/-- Every URL that `get_json` and `post_didcomm` contact passes the check, and only temporary
redirects are followed, exactly when the temporary redirects the servers answered with, two at most,
did not lead to an IP literal. -/
theorem contacted_allowed_iff {J : Type*} (urls : Urls) (json : String → Option J)
    (net : ℕ → Exchange) (url : String) :
    (Policy urls net (strict.getJson urls json net url).1 ∧
        Policy urls net (strict.postDidcomm urls net url).1) ↔
      ∀ start, strict.check urls url = .ok start →
        ∀ n < 3, ∀ u, Redirected urls net start n u → ¬ u.Literal := by
  rw [getJson_contacted, postDidcomm_contacted, and_self]
  exact policy_contacted_iff url

namespace LiteralExample

/-- A stranger's endpoint. -/
def endpoint : Url :=
  ⟨"https://mediator.example.com/didcomm", "https", some (.domain "mediator.example.com")⟩

/-- The metadata service of a cloud host. -/
def metadata : Url :=
  ⟨"https://169.254.169.254/latest", "https", some (.ip (.v4 ⟨169, 254, 169, 254⟩))⟩

/-- The `url` crate on these two. -/
def twoUrls : Urls where
  parse url := [endpoint, metadata].find? (·.href == url)
  join _ location := [endpoint, metadata].find? (·.href == location)

/-- The endpoint answers with a temporary redirect to the metadata service. -/
def redirecting (_ : ℕ) : Exchange where
  addrs := [.v4 ⟨203, 1, 0, 1⟩]
  answer := some { status := 307, location := some metadata.href, body := "" }

end LiteralExample

open LiteralExample in
/-- A temporary redirect takes the strict client to an IP literal. -/
theorem literal_contacted : ¬ ∀ (urls : Urls) (net : ℕ → Exchange) (url : String),
    Policy urls net (strict.postDidcomm urls net url).1 := by
  intro h
  have hred : Redirected twoUrls redirecting endpoint 1 metadata :=
    .follow .start (by decide) rfl rfl (by decide) rfl
  have hpolicy := h twoUrls redirecting endpoint.href
  rw [postDidcomm_contacted, policy_contacted_iff] at hpolicy
  exact hpolicy endpoint (by decide) 1 (by decide) metadata hred ⟨_, rfl⟩

end Transport
