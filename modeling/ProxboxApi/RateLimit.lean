import Mathlib.Algebra.Order.Ring.Rat
import Mathlib.Data.Finset.Dedup
import Mathlib.Data.Finset.Order
import ProxboxApi.IpAddress
import ProxboxApi.SlidingWindow

/-! The rate limit of the HTTP API: the address of a client behind trusted proxies, and the
middleware that counts the requests of a minute. -/

namespace ProxboxApi.RateLimit

open IpAddress

section ClientIp

variable (trustedProxies : List Network)

/-- `_peer_is_trusted`: without networks nobody is trusted. -/
def peerIsTrusted (peerIp : String) : Bool :=
  match ipAddress peerIp with
  | none => false
  | some peer => trustedProxies.any fun net => net.contains peer

/-- The tokens of an `X-Forwarded-For` header. -/
def candidates (forwarded : String) : List String :=
  (((forwarded.toList.splitOn ',').map (Text.stripChars Text.isSpace)).filter (· ≠ [])).map
    String.ofList

/-- The first untrusted token from the right. -/
def firstUntrusted (peerIp forwarded : String) : String :=
  let tokens := candidates forwarded
  match tokens.reverse.find? fun candidate => !peerIsTrusted trustedProxies candidate with
  | some candidate => candidate
  | none => tokens.head?.getD peerIp

/-- `resolve_client_ip`. -/
def resolveClientIp (host forwarded : Option String) : String :=
  let peerIp := host.getD "unknown"
  if peerIsTrusted trustedProxies peerIp = false then peerIp
  else match forwarded with
    | none => peerIp
    | some forwarded =>
      if forwarded = "" then peerIp else firstUntrusted trustedProxies peerIp forwarded

/-- `_get_client_ip` of the WebSocket routes, which reads a missing header as an empty one. -/
def getClientIp (host forwarded : Option String) : String :=
  let peerIp := host.getD "unknown"
  if peerIsTrusted trustedProxies peerIp = false then peerIp
  else
    let forwarded := forwarded.getD ""
    if forwarded = "" then peerIp else firstUntrusted trustedProxies peerIp forwarded

theorem getClientIp_eq (host forwarded : Option String) :
    getClientIp trustedProxies host forwarded = resolveClientIp trustedProxies host forwarded := by
  unfold getClientIp resolveClientIp
  cases forwarded <;> rfl

end ClientIp

/-- A request as the middleware reads it. -/
structure Incoming where
  time : ℚ
  path : String
  host : Option String
  forwarded : Option String
  deriving DecidableEq, Repr

def authExemptPaths : List String :=
  ["/", "/docs", "/redoc", "/openapi.json", "/health", "/meta", "/auth/register-key",
    "/auth/bootstrap-status"]

/-- The paths that are not counted. -/
def exempt (path : String) : Bool :=
  "/static/".toList.isPrefixOf path.toList || path ∈ authExemptPaths

def windowSize : ℚ := 60

/-- `RateLimitMiddleware`, as the application adds it: with a limit of one at least. -/
structure RateLimitMiddleware where
  requestsPerMinute : ℕ
  pos : 0 < requestsPerMinute

/-- The limit that `PROXBOX_RATE_LIMIT` sets; `none` is a text that is not an integer. -/
def RateLimitMiddleware.ofEnv (rateLimit : Option ℤ) : RateLimitMiddleware :=
  match rateLimit with
  | some n => ⟨(max 1 n).toNat, by omega⟩
  | none => ⟨300, by omega⟩

/-- The times of the requests that were let through, by client. -/
abbrev Requests := SlidingWindow.Table String ℚ

section Dispatch

variable (m : RateLimitMiddleware) (trustedProxies : List Network)

def Incoming.clientIp (r : Incoming) : String :=
  resolveClientIp trustedProxies r.host r.forwarded

/-- `dispatch`: whether the request goes on; the other answer is 429. -/
def dispatch (requests : Requests) (r : Incoming) : Requests × Bool :=
  if exempt r.path then (requests, true)
  else
    SlidingWindow.accept m.requestsPerMinute windowSize requests (r.clientIp trustedProxies) r.time

/-- A run: the table, and each request with its verdict. -/
def respond (s : Requests × List (Incoming × Bool)) (r : Incoming) :
    Requests × List (Incoming × Bool) :=
  let dispatched := dispatch m trustedProxies s.1 r
  (dispatched.1, s.2 ++ [(r, dispatched.2)])

def serve (rs : List Incoming) : Requests × List (Incoming × Bool) :=
  rs.foldl (respond m trustedProxies) ([], [])

/-- The requests of a client that were counted. -/
def counted (ip : String) (log : List (Incoming × Bool)) : List ℚ :=
  (log.filter fun x => decide (x.1.clientIp trustedProxies = ip) && x.2 && !exempt x.1.path).map
    (·.1.time)

/-- A request as the limiter takes it. -/
def Incoming.entry (r : Incoming) : Option (String × ℚ) :=
  if exempt r.path then none else some (r.clientIp trustedProxies, r.time)

def logged (x : Incoming × Bool) : Option (SlidingWindow.Entry String ℚ) :=
  if exempt x.1.path then none else some ⟨x.1.clientIp trustedProxies, x.1.time, x.2⟩

end Dispatch

section Runs

variable {m : RateLimitMiddleware} {trustedProxies : List Network} {rs : List Incoming}
  {log : List (Incoming × Bool)} {ip : String}

theorem counted_eq :
    counted trustedProxies ip log =
      SlidingWindow.passed ip (log.filterMap (logged trustedProxies)) := by
  induction log with
  | nil => rfl
  | cons x log ih =>
    unfold counted SlidingWindow.passed at *
    unfold logged at *
    by_cases hexempt : exempt x.1.path = true
    · simpa [List.filterMap_cons, hexempt] using ih
    · simp only [List.filterMap_cons, hexempt, List.filter_cons]
      by_cases hx : x.1.clientIp trustedProxies = ip ∧ x.2 = true
      · simpa [hx, hexempt] using ih
      · have hx' : ¬ (x.1.clientIp trustedProxies = ip ∧ x.2 = true) := hx
        by_cases h1 : x.1.clientIp trustedProxies = ip
        · have h2 : x.2 = false := by
            by_contra hpass
            exact hx ⟨h1, by simpa using hpass⟩
          simpa [h1, h2] using ih
        · simpa [h1] using ih

theorem serve_concat {r : Incoming} : serve m trustedProxies (rs ++ [r]) =
    respond m trustedProxies (serve m trustedProxies rs) r := by
  unfold serve
  rw [List.foldl_append]
  rfl

/-- The limiter's run under a run of the middleware. -/
theorem serve_eq : (serve m trustedProxies rs).1 =
      (SlidingWindow.run m.requestsPerMinute windowSize
        (rs.filterMap (Incoming.entry trustedProxies))).1 ∧
    (serve m trustedProxies rs).2.filterMap (logged trustedProxies) =
      (SlidingWindow.run m.requestsPerMinute windowSize
        (rs.filterMap (Incoming.entry trustedProxies))).2 := by
  induction rs using List.reverseRecOn with
  | nil => exact ⟨rfl, rfl⟩
  | append_singleton rs r ih =>
    obtain ⟨htable, hlog⟩ := ih
    rw [serve_concat, List.filterMap_append]
    by_cases hexempt : exempt r.path = true
    · have hentry : [r].filterMap (Incoming.entry trustedProxies) = [] := by
        simp [Incoming.entry, hexempt]
      have hrespond : respond m trustedProxies (serve m trustedProxies rs) r =
          ((serve m trustedProxies rs).1, (serve m trustedProxies rs).2 ++ [(r, true)]) := by
        simp [respond, dispatch, hexempt]
      rw [hrespond, hentry, List.append_nil, List.filterMap_append, hlog]
      exact ⟨htable, by simp [logged, hexempt]⟩
    · have hentry : [r].filterMap (Incoming.entry trustedProxies) =
          [(r.clientIp trustedProxies, r.time)] := by
        simp [Incoming.entry, hexempt]
      rw [hentry, SlidingWindow.run_concat]
      unfold SlidingWindow.step respond dispatch
      rw [if_neg hexempt, List.filterMap_append, hlog, ← htable]
      exact ⟨rfl, by simp [logged, hexempt]⟩

/-- Exempt requests always go on. -/
theorem passed_of_exempt {x : Incoming × Bool} (hx : x ∈ (serve m trustedProxies rs).2)
    (hexempt : exempt x.1.path = true) : x.2 = true := by
  induction rs using List.reverseRecOn with
  | nil => simp [serve] at hx
  | append_singleton rs r ih =>
    rw [serve_concat] at hx
    rcases List.mem_append.mp hx with hx | hx
    · exact ih hx
    · obtain rfl := List.mem_singleton.mp hx
      simp only [dispatch]
      rw [if_pos hexempt]

end Runs

/-- In a run in the order of time a request goes on exactly if it is exempt or fewer requests than
the limit went on for its client in the last minute; so no minute counts more than the limit, and
the table has no more times of a client and no client without one. -/
theorem rate_limited (m : RateLimitMiddleware) (trustedProxies : List Network)
    (rs : List Incoming) (hclock : rs.Pairwise (·.time ≤ ·.time)) :
    (∀ before r passed rest, (serve m trustedProxies rs).2 = before ++ (r, passed) :: rest →
      (passed = true ↔ exempt r.path = true ∨
        ((counted trustedProxies (r.clientIp trustedProxies) before).filter
          (r.time - windowSize < ·)).length < m.requestsPerMinute)) ∧
    (∀ ip start, ((counted trustedProxies ip (serve m trustedProxies rs).2).filter fun t =>
      start ≤ t ∧ t < start + windowSize).length ≤ m.requestsPerMinute) ∧
    (∀ ip, (SlidingWindow.times ip (serve m trustedProxies rs).1).length ≤ m.requestsPerMinute) ∧
    ∀ entry ∈ (serve m trustedProxies rs).1, entry.2 ≠ [] := by
  have hserve := @serve_eq m trustedProxies rs
  obtain ⟨htable, hlog⟩ := hserve
  have hentries : (rs.filterMap (Incoming.entry trustedProxies)).Pairwise (·.2 ≤ ·.2) := by
    refine List.Pairwise.filterMap _ ?_ hclock
    intro r r' hle x hx x' hx'
    unfold Incoming.entry at hx hx'
    split at hx <;> split at hx' <;> simp_all
    rw [← hx, ← hx']
    exact hle
  obtain ⟨clock, hend⟩ : ∃ clock, ∀ x ∈ rs.filterMap (Incoming.entry trustedProxies),
      x.2 ≤ clock := by
    obtain ⟨clock, hclock⟩ := Finset.exists_le
      ((rs.filterMap (Incoming.entry trustedProxies)).map Prod.snd).toFinset
    exact ⟨clock, fun x hx => hclock x.2 (List.mem_toFinset.mpr (List.mem_map_of_mem hx))⟩
  have hkept : SlidingWindow.Kept m.requestsPerMinute windowSize clock
      ((serve m trustedProxies rs).1,
        (serve m trustedProxies rs).2.filterMap (logged trustedProxies)) := by
    rw [htable, hlog]
    exact SlidingWindow.kept_run hentries clock hend
  refine ⟨?_, ?_, ?_⟩
  · intro before r passed rest hsplit
    by_cases hexempt : exempt r.path = true
    · have hmem : (r, passed) ∈ (serve m trustedProxies rs).2 := by simp [hsplit]
      have hpassed : passed = true := passed_of_exempt hmem hexempt
      simp [hpassed, hexempt]
    · have hdecided := hkept.decided (before.filterMap (logged trustedProxies))
        ⟨r.clientIp trustedProxies, r.time, passed⟩ (rest.filterMap (logged trustedProxies)) (by
          simp only
          rw [hsplit, List.filterMap_append, List.filterMap_cons]
          simp [logged, hexempt])
      simp only [hexempt, false_or, Bool.false_eq_true]
      rw [counted_eq]
      exact hdecided
  · intro ip start
    rw [counted_eq]
    exact hkept.bounded ip start
  · exact ⟨hkept.few, hkept.entries⟩

def privateProxies : List Network := [.v4 (.of (quad 10 0 0 0) 8)]

/-- Three requests of one client, the second one through a proxy. -/
def threeRequests : List Incoming :=
  [⟨0, "/sync/active", some "192.0.2.7", none⟩,
    ⟨1, "/sync/active", some "10.0.0.1", some "192.0.2.7"⟩,
    ⟨2, "/sync/active", some "192.0.2.7", none⟩]

/-- With a limit of two the third request is refused. -/
theorem third_refused :
    (serve ⟨2, by decide⟩ privateProxies threeRequests).2.map Prod.snd = [true, true, false] ∧
    ((counted privateProxies "192.0.2.7"
      (serve ⟨2, by decide⟩ privateProxies threeRequests).2).filter fun t =>
        0 ≤ t ∧ t < 0 + windowSize).length ≤ 2 :=
  ⟨by decide +kernel, (rate_limited ⟨2, by decide⟩ privateProxies threeRequests (by decide)).2.1
    "192.0.2.7" 0⟩

/-- A proxy adds the address of its peer to the header. -/
def forward (header : Option String) (peer : String) : Option String :=
  match header with
  | none => some peer
  | some header => some (header ++ ", " ++ peer)

/-- A request through a chain of proxies; `forged` is the header that the client sends itself. -/
structure Arrival where
  time : ℚ
  path : String
  client : String
  proxies : List String
  forged : Option String

/-- The request at the application, whose peer is the last proxy. -/
def Arrival.incoming (a : Arrival) : Incoming where
  time := a.time
  path := a.path
  host := (a.client :: a.proxies).getLast?
  forwarded := (a.client :: a.proxies).dropLast.foldl forward a.forged

/-- The same request straight from the client. -/
def Arrival.direct (a : Arrival) : Incoming := ⟨a.time, a.path, some a.client, none⟩

/-- An address as one token of a header. -/
structure Plain (hop : String) : Prop where
  nonempty : hop ≠ ""
  comma : ',' ∉ hop.toList
  stripped : Text.stripChars Text.isSpace hop.toList = hop.toList

/-- The proxies are trusted and the client is not. -/
structure Genuine (trustedProxies : List Network) (a : Arrival) : Prop where
  client : peerIsTrusted trustedProxies a.client = false
  proxies : ∀ hop ∈ a.proxies, peerIsTrusted trustedProxies hop = true
  plain : ∀ hop ∈ a.client :: a.proxies, Plain hop

section Chain

variable {trustedProxies : List Network}

theorem candidates_empty : candidates "" = [] := by decide

theorem candidates_plain {hop : String} (h : Plain hop) : candidates hop = [hop] := by
  have hne : hop.toList ≠ [] := by
    intro hnil
    exact h.nonempty (String.toList_injective hnil)
  unfold candidates
  rw [List.splitOn_eq_singleton h.comma, List.map_singleton, h.stripped]
  simp [hne]

theorem candidates_append {header hop : String} (h : Plain hop) :
    candidates (header ++ ", " ++ hop) = candidates header ++ [hop] := by
  have hlist : (header ++ ", " ++ hop).toList = header.toList ++ ',' :: ' ' :: hop.toList := by
    simp [String.toList_append]
  have hcomma : ',' ∉ ' ' :: hop.toList := by
    intro hmem
    rcases List.mem_cons.mp hmem with hspace | hmem
    · exact absurd hspace (by decide)
    · exact h.comma hmem
  -- the blank after the comma is stripped
  have hspace : Text.stripChars Text.isSpace (' ' :: hop.toList) =
      Text.stripChars Text.isSpace hop.toList := by
    unfold Text.stripChars
    rw [List.dropWhile_cons_of_pos (by decide)]
  have hne : hop.toList ≠ [] := by
    intro hnil
    exact h.nonempty (String.toList_injective hnil)
  unfold candidates
  rw [hlist, List.splitOn_append_cons_self, List.splitOn_eq_singleton hcomma, List.map_append,
    List.map_singleton, hspace, h.stripped, List.filter_append, List.map_append]
  simp [hne]

/-- Each proxy adds one token at the end. -/
theorem candidates_forward {header : Option String} {hop : String} (h : Plain hop) :
    candidates ((forward header hop).getD "") = candidates (header.getD "") ++ [hop] := by
  cases header with
  | none =>
    change candidates hop = candidates "" ++ [hop]
    rw [candidates_plain h, candidates_empty]
    rfl
  | some header => exact candidates_append h

theorem candidates_chain {hops : List String} (h : ∀ hop ∈ hops, Plain hop)
    (header : Option String) :
    candidates ((hops.foldl forward header).getD "") = candidates (header.getD "") ++ hops := by
  induction hops generalizing header with
  | nil => exact (List.append_nil _).symm
  | cons hop hops ih =>
    have hrest := ih (fun hop' hmem => h hop' (List.mem_cons_of_mem hop hmem)) (forward header hop)
    rw [List.foldl_cons, hrest, candidates_forward (h hop List.mem_cons_self), List.append_assoc]
    rfl

/-- From the right the tokens are trusted proxies up to the client. -/
theorem firstUntrusted_chain {forwarded client peerIp : String} {forged hops : List String}
    (htokens : candidates forwarded = forged ++ client :: hops)
    (hclient : peerIsTrusted trustedProxies client = false)
    (hhops : ∀ hop ∈ hops, peerIsTrusted trustedProxies hop = true) :
    firstUntrusted trustedProxies peerIp forwarded = client := by
  have hfind : (forged ++ client :: hops).reverse.find?
      (fun candidate => !peerIsTrusted trustedProxies candidate) = some client := by
    have hnone : hops.reverse.find? (fun candidate => !peerIsTrusted trustedProxies candidate) =
        none := by
      rw [List.find?_eq_none]
      intro hop hmem
      simp [hhops hop (List.mem_reverse.mp hmem)]
    rw [List.reverse_append, List.reverse_cons, List.append_assoc, List.find?_append, hnone]
    simp [hclient]
  unfold firstUntrusted
  rw [htokens]
  simp only [hfind]

/-- The address of a genuine request is its client's, whatever header the client sends. -/
theorem clientIp_incoming {a : Arrival} (h : Genuine trustedProxies a) :
    a.incoming.clientIp trustedProxies = a.client := by
  unfold Incoming.clientIp Arrival.incoming resolveClientIp
  rcases List.eq_nil_or_concat' a.proxies with hnil | ⟨hops, last, hproxies⟩
  · simp [hnil, h.client]
  · have hlast : peerIsTrusted trustedProxies last = true := h.proxies last (by simp [hproxies])
    have hplain : ∀ hop ∈ a.client :: hops, Plain hop := by
      intro hop hmem
      refine h.plain hop ?_
      rw [hproxies]
      rcases List.mem_cons.mp hmem with rfl | hmem
      · exact List.mem_cons_self
      · exact List.mem_cons_of_mem _ (List.mem_append_left _ hmem)
    have hpeer : (a.client :: a.proxies).getLast? = some last := by
      rw [hproxies, ← List.cons_append, List.getLast?_concat]
    have hinit : (a.client :: a.proxies).dropLast = a.client :: hops := by
      rw [hproxies, ← List.cons_append, List.dropLast_concat]
    have htokens := candidates_chain hplain a.forged
    simp only [hpeer, hinit, Option.getD_some, hlast, if_false, Bool.true_eq_false]
    cases hheader : (a.client :: hops).foldl forward a.forged with
    | none =>
      rw [hheader, Option.getD_none, candidates_empty] at htokens
      simp at htokens
    | some forwarded =>
      rw [hheader, Option.getD_some] at htokens
      have hne : forwarded ≠ "" := by
        rintro rfl
        rw [candidates_empty] at htokens
        simp at htokens
      simp only [hne, if_false]
      refine firstUntrusted_chain htokens h.client ?_
      intro hop hmem
      exact h.proxies hop (by simp [hproxies, hmem])

theorem clientIp_direct {a : Arrival} (h : Genuine trustedProxies a) :
    a.direct.clientIp trustedProxies = a.client := by
  simp [Incoming.clientIp, Arrival.direct, resolveClientIp, h.client]

end Chain

/-- Behind trusted proxies the middleware treats every run as if its clients were connected
directly, whatever `X-Forwarded-For` headers they send; the WebSocket routes see the same
clients. -/
theorem forged_headers_ignored (m : RateLimitMiddleware) (trustedProxies : List Network)
    (arrivals : List Arrival) (hgenuine : ∀ a ∈ arrivals, Genuine trustedProxies a) :
    (serve m trustedProxies (arrivals.map Arrival.incoming)).1 =
      (serve m trustedProxies (arrivals.map Arrival.direct)).1 ∧
    (serve m trustedProxies (arrivals.map Arrival.incoming)).2.map Prod.snd =
      (serve m trustedProxies (arrivals.map Arrival.direct)).2.map Prod.snd ∧
    ∀ a ∈ arrivals, getClientIp trustedProxies a.incoming.host a.incoming.forwarded = a.client := by
  have hwebsocket : ∀ a ∈ arrivals,
      getClientIp trustedProxies a.incoming.host a.incoming.forwarded = a.client := by
    intro a ha
    rw [getClientIp_eq]
    exact clientIp_incoming (hgenuine a ha)
  rw [← and_assoc]
  refine ⟨?_, hwebsocket⟩
  induction arrivals using List.reverseRecOn with
  | nil => exact ⟨rfl, rfl⟩
  | append_singleton arrivals a ih =>
    obtain ⟨htable, hverdicts⟩ := ih (fun a' ha' => hgenuine a' (by simp [ha']))
      fun a' ha' => hwebsocket a' (by simp [ha'])
    have ha := hgenuine a (by simp)
    have hdispatch : ∀ requests, dispatch m trustedProxies requests a.incoming =
        dispatch m trustedProxies requests a.direct := by
      intro requests
      unfold dispatch
      rw [clientIp_incoming ha, clientIp_direct ha]
      rfl
    rw [List.map_append, List.map_append]
    simp only [List.map_cons, List.map_nil, serve_concat, respond]
    rw [htable, hdispatch, List.map_append, List.map_append, hverdicts]
    exact ⟨rfl, rfl⟩

/-- A client behind two proxies that forges two hops. -/
def forgedArrival : Arrival where
  time := 0
  path := "/sync/active"
  client := "192.0.2.7"
  proxies := ["10.0.0.1", "10.0.0.2"]
  forged := some "198.51.100.1, 10.0.0.9"

theorem forgedArrival_genuine : Genuine privateProxies forgedArrival where
  client := by decide +kernel
  proxies := by decide +kernel
  plain := by
    intro hop hmem
    simp only [forgedArrival, List.mem_cons, List.not_mem_nil, or_false] at hmem
    rcases hmem with rfl | rfl | rfl <;> exact ⟨by decide, by decide, by decide⟩

theorem forged_hops_ignored :
    forgedArrival.incoming.forwarded =
      some "198.51.100.1, 10.0.0.9, 192.0.2.7, 10.0.0.1" ∧
    getClientIp privateProxies forgedArrival.incoming.host forgedArrival.incoming.forwarded =
      "192.0.2.7" := by
  refine ⟨by decide, ?_⟩
  exact (forged_headers_ignored ⟨300, by decide⟩ privateProxies [forgedArrival] fun a ha =>
    List.mem_singleton.mp ha ▸ forgedArrival_genuine).2.2 forgedArrival List.mem_cons_self

end ProxboxApi.RateLimit
