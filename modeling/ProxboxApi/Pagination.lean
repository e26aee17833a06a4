import ProxboxApi.GetCache
import ProxboxApi.Python

/-! `_rest_list_traverse_async` against an arbitrary server: the parsing of a page, the
retries of a request, and the loop over pages with its guards. -/

namespace ProxboxApi.Pagination

open GetCache

abbrev Query := Json.Fields
abbrev Record := Json.Fields

/-- `NETBOX_REST_LIST_HARD_MAX_PAGES`. -/
def hardMaxPages : ℕ := 10000

/-- `NETBOX_REST_LIST_HARD_MAX_RECORDS`. -/
def hardMaxRecords : ℕ := 1000000

/-- An exception, by the message and the detail that `str` shows. -/
structure Raised where
  message : String
  detail : String
  deriving DecidableEq, Repr

def Raised.text (e : Raised) : String :=
  if e.detail = "" then e.message else e.message ++ " | " ++ e.detail

/-- A reply to one page request: an exception of the client or of the reading of the
response, or a JSON payload. -/
inductive Reply where
  | raises (e : Raised)
  | payload (j : Json)

/-- What the traversal works with: the settings, Python's strings, `json.dumps` of queries
and of records, and `urlsplit` with `parse_qsl`. -/
structure Client where
  cfg : Config Record
  api : ℕ
  maxRetries : ℕ
  py : Python
  dumpsQuery : Query → String
  dumpsRecord : Record → String
  splitUrl : String → Except Raised (String × List (String × String))

variable (c : Client)

def transientIndicators : List String :=
  ["connection refused", "cannot connect", "connect call failed", "server disconnected",
    "timeout", "temporarily unavailable", "name or service not known", "no route to host",
    "network is unreachable", "connection slots are reserved", "remaining connection slots",
    "too many connections", "database unavailable", "psycopg2.errors", "operationalerror"]

/-- `_is_transient_netbox_error`. -/
def isTransient (e : Raised) : Bool :=
  transientIndicators.any fun indicator =>
    (c.py.lower e.text).toList.tails.any fun rest => indicator.toList.isPrefixOf rest

/-- `_serialize_query`. -/
def serializeQuery (q : Query) : String := if q.isEmpty then "" else c.dumpsQuery q

/-- `_pagination_protocol_error`. -/
def protocolError (path detail : String) : Raised :=
  ⟨"NetBox returned invalid pagination data",
    detail ++ " while listing " ++ path ++ "; refusing to return a partial collection."⟩

def stalledError (detail path : String) : Raised :=
  ⟨"NetBox pagination did not advance",
    detail ++ " while listing " ++ path ++ "; refusing to return a partial collection."⟩

/-- A query parameter that occurs again turns into the list of its values. -/
def addParameter (q : Query) (kv : String × String) : Query :=
  match Dict.get kv.1 q with
  | none => Dict.set kv.1 (.str kv.2) q
  | some (.arr values) => Dict.set kv.1 (.arr (values ++ [.str kv.2])) q
  | some value => Dict.set kv.1 (.arr [value, .str kv.2]) q

/-- `_parse_next_link`. -/
def parseNextLink : Json → Except Raised (Option (String × Query))
  | .str url =>
    if url = "" then .ok none
    else do
      let (path, parameters) ← c.splitUrl url
      if path = "" then .ok none
      else .ok (some (path, parameters.foldl addParameter []))
  | _ => .ok none

/-- `_pagination_record_signature`. -/
def recordSignature (record : Record) : String × String :=
  let recordId := (Dict.get "id" record).getD .null
  if !recordId.blank then ("id", c.py.str recordId) else ("record", c.dumpsRecord record)

/-- `int` of a string of ASCII digits, which gives up beyond 4300 of them. -/
def parseDigits (s : String) : Except Raised ℕ :=
  if s.length ≤ 4300 then .ok (Python.digitsValue s.toList)
  else .error ⟨"Exceeds the limit (4300 digits) for integer string conversion", ""⟩

/-- `_pagination_offset`. -/
def paginationOffset (q : Query) : Except Raised (Option ℕ) :=
  match Dict.get "offset" q with
  | none => .ok none
  | some raw =>
    let single := match raw with
      | .arr [value] => some value
      | .arr _ => none
      | value => some value
    match single with
    | some (.int n) => .ok (if 0 ≤ n then some n.toNat else none)
    | some (.str s) => if Text.isDigits s.toList then do
        let n ← parseDigits s
        .ok (some n)
      else .ok none
    | _ => .ok none

/-- `_validated_pagination_offset`. -/
def validatedOffset (path : String) (q : Query) (required : Bool) (label : String) :
    Except Raised ℕ :=
  let refused := protocolError path
    (label ++ " did not contain exactly one non-negative integer offset")
  match Dict.get "offset" q with
  | none => if required then .error refused else .ok 0
  | some _ => do
    match ← paginationOffset q with
    | none => .error refused
    | some offset => .ok offset

/-- `_pagination_query_multimap`. -/
def queryMultimap (q : Query) : List (String × List String) :=
  let normalized := (q.filter fun kv => !(kv.1 = "limit" || kv.1 = "offset")).map fun kv =>
    let values := match kv.2 with
      | .arr values => values
      | value => [value]
    (kv.1, (values.map (c.py.str)).insertionSort (· ≤ ·))
  normalized.insertionSort fun a b => a.1 ≤ b.1

/-- `_pagination_count`. -/
def paginationCount (path : String) (payload : Json.Fields) : Except Raised ℕ :=
  let refused := protocolError path
    "NetBox returned a paginated object without a non-negative integer count"
  match Dict.get "count" payload with
  | some (.int n) => if n < 0 then .error refused else .ok n.toNat
  | _ => .error refused

/-- `to_dict`, on JSON values. -/
def toDict : Json → Record
  | .obj fields => fields
  | _ => []

/-- A page as it was read: the raw items of its results, the records made of them, the
parsed next link and the declared count. -/
structure Page where
  items : List Json
  records : List Record
  next : Option (String × Query)
  count : Option ℕ

/-- The results, the next link and the count of a payload. -/
def pageParts (path : String) : Json → Except Raised (Json × Json × Option ℕ)
  | .obj fields => match Dict.get "results" fields with
    | none => .error (protocolError path "NetBox returned an object without a results field")
    | some results => do
      let count ← paginationCount path fields
      .ok (results, (Dict.get "next" fields).getD .null, some count)
  | .arr items => .ok (.arr items, .null, none)
  | _ => .error (protocolError path "NetBox REST list response was not a JSON array/object")

def pageOf (path : String) (results nextLink : Json) (count : Option ℕ) : Except Raised Page :=
  match results with
  | .arr items => do
    let next ← parseNextLink c nextLink
    if !nextLink.isNull && next.isNone then
      .error (protocolError path "NetBox returned a non-null invalid next link")
    else
      -- every item converts to a dictionary, so the test for one cannot fail
      .ok ⟨items, items.map toDict, next, count⟩
  | _ => .error (protocolError path "NetBox REST list response did not contain a results list")

/-- `_do_request`, from the reply on. -/
def readPage (path : String) : Reply → Except Raised Page
  | .raises e => .error e
  | .payload payload => do
    let (results, nextLink, count) ← pageParts path payload
    pageOf c path results nextLink count

/-- `_fetch_page`, with `left` retries after this attempt. -/
def fetchPage (path : String) (replies : ℕ → Reply) : ℕ → ℕ → Except Raised Page
  | 0, attempt => readPage c path (replies attempt)
  | left + 1, attempt => match readPage c path (replies attempt) with
    | .ok page => .ok page
    | .error e => if isTransient c e then fetchPage path replies left (attempt + 1) else .error e

/-- The arguments of a traversal. -/
structure Request where
  path : String
  query : Query
  maxRecords : Option ℤ
  maxOffset : Option ℤ

def Request.normalizedPath (req : Request) : String := normalizePath req.path

/-- The server's reply to an attempt at a page, which may depend on all that came before. -/
abbrev Server := (page attempt : ℕ) → (path : String) → (query : Query) → Reply

/-- Where the loop is about to read: the request, and the offset it stands for. -/
structure Cursor where
  path : String
  query : Query
  offset : ℕ

/-- One page that was fetched, with its request. -/
structure Visit extends Cursor where
  page : Page

/-- The variables of the loop, with the pages fetched so far. -/
structure Loop extends Cursor where
  aggregated : List Record
  seenPages : List (String × String)
  seenRecords : List (String × String)
  paginated : Option Bool
  expected : Option ℕ
  visits : List Visit

def refuseIf (p : Prop) [Decidable p] (e : Raised) : Except Raised Unit :=
  if p then .error e else .ok ()

/-- An optional number in a message. -/
def shown {α : Type*} [ToString α] : Option α → String
  | some n => toString n
  | none => "None"

def exceeds (n : ℕ) (limit : Option ℤ) : Bool := limit.any fun m => decide (m < (n : ℤ))

def reaches (n : ℕ) (limit : Option ℤ) : Bool := limit.any fun m => decide (m ≤ (n : ℤ))

/-- The shape and the count of a page against those of the first page. -/
def checkShape (path : String) (s : Loop) (page : Page) : Except Raised Unit :=
  match s.paginated with
  | none => .ok ()
  | some paginated => do
    refuseIf (page.count.isSome ≠ paginated)
      (protocolError path "NetBox changed pagination response shape between pages")
    refuseIf (page.count ≠ s.expected)
      (protocolError path ("NetBox changed pagination count from " ++ shown s.expected ++ " to " ++
        shown page.count))

/-- The declared count, once a page has been read. -/
def expectedCount (s : Loop) (page : Page) : Option ℕ :=
  if s.paginated.isNone then page.count else s.expected

/-- The loop body after the fetch, up to the test for a next link: the variables with the
page taken in. -/
def takeIn (req : Request) (s : Loop) (page : Page) : Except Raised Loop := do
  checkShape req.path s page
  let expected := expectedCount s page
  refuseIf (page.records ≠ [] ∧ expected.any (· < s.offset + page.records.length) = true)
    (protocolError req.path "Page results extended beyond the declared pagination count")
  let signatures := page.records.map (recordSignature c)
  refuseIf (¬ signatures.Nodup ∨ ∃ x ∈ signatures, x ∈ s.seenRecords)
    (stalledError "Overlapping record content" req.path)
  refuseIf (hardMaxRecords < s.aggregated.length + page.records.length)
    (protocolError req.path
      ("Pagination exceeded the hard record limit of " ++ toString hardMaxRecords))
  refuseIf (exceeds (s.aggregated.length + page.records.length) req.maxRecords = true)
    (protocolError req.path
      ("Pagination exceeded the explicit record limit of " ++ shown req.maxRecords))
  .ok { s with
    aggregated := s.aggregated ++ page.records
    seenRecords := s.seenRecords ++ signatures
    paginated := some (s.paginated.getD page.count.isSome)
    expected
    visits := s.visits ++ [⟨s.toCursor, page⟩] }

/-- The last page has been taken in. -/
def finish (req : Request) (initialOffset : ℕ) (s : Loop) : Except Raised (List Record) := do
  refuseIf (s.expected.any (fun n => s.aggregated.length ≠ n - initialOffset) = true)
    (protocolError req.path ("Final aggregate length " ++ toString s.aggregated.length ++
      " did not match the declared count " ++ shown s.expected ++ " from initial offset " ++
      toString initialOffset))
  .ok s.aggregated

/-- A page with a next link has been taken in: the variables for the page after it, of which
`left` more are allowed. -/
def advance (req : Request) (left : ℕ) (s : Loop) (page : Page) (next : String × Query) :
    Except Raised Loop := do
  refuseIf (page.records = [])
    (stalledError "NetBox returned an empty page with a next link" req.path)
  refuseIf (normalizePath next.1 ≠ req.normalizedPath)
    (protocolError req.path ("Pagination next link changed resource path to " ++ next.1))
  refuseIf (queryMultimap c next.2 ≠ queryMultimap c req.query)
    (protocolError req.path "Pagination next link changed non-pagination query parameters")
  let nextOffset ← validatedOffset req.path next.2 true "Pagination next link"
  refuseIf (nextOffset ≠ s.offset + page.records.length)
    (protocolError req.path ("NetBox pagination did not advance continuously: next offset " ++
      toString nextOffset ++ ", expected " ++ toString (s.offset + page.records.length)))
  refuseIf (exceeds nextOffset req.maxOffset = true)
    (protocolError req.path ("Pagination next offset " ++ toString nextOffset ++
      " exceeded the explicit maximum " ++ shown req.maxOffset))
  refuseIf (reaches s.aggregated.length req.maxRecords = true)
    (protocolError req.path ("Pagination reached the explicit record limit of " ++
      shown req.maxRecords ++ " before the final page"))
  refuseIf (hardMaxRecords ≤ s.aggregated.length)
    (protocolError req.path ("Pagination reached the hard record limit of " ++
      toString hardMaxRecords ++ " before the final page"))
  refuseIf (left = 0)
    (protocolError req.path ("Pagination reached the hard limit of " ++ toString hardMaxPages ++
      " pages before the final page"))
  let pageSignature := (req.normalizedPath, serializeQuery c next.2)
  refuseIf (pageSignature ∈ s.seenPages)
    (stalledError "NetBox produced a repeated next link" req.path)
  .ok { s with
    seenPages := s.seenPages ++ [pageSignature]
    toCursor := ⟨req.normalizedPath, next.2, nextOffset⟩ }

/-- What the loop comes to, with the number of page fetches and the pages they gave. -/
structure Outcome where
  result : Except Raised (List Record)
  fetches : ℕ
  visits : List Visit

/-- The loop, with `left` pages to the hard limit. -/
def loop (req : Request) (server : Server) (initialOffset : ℕ) : ℕ → Loop → Outcome
  | 0, s => ⟨.error (protocolError req.path
      ("Pagination exceeded the hard limit of " ++ toString hardMaxPages ++ " pages")),
      s.visits.length, s.visits⟩
  | left + 1, s =>
    let fetches := s.visits.length + 1
    match fetchPage c req.path (fun attempt => server s.visits.length attempt s.path s.query)
        c.maxRetries 0 with
    | .error e => ⟨.error e, fetches, s.visits⟩
    | .ok page => match takeIn c req s page with
      | .error e => ⟨.error e, fetches, s.visits ++ [⟨s.toCursor, page⟩]⟩
      | .ok s => match page.next with
        | none => ⟨finish req initialOffset s, fetches, s.visits⟩
        | some next => match advance c req left s page next with
          | .error e => ⟨.error e, fetches, s.visits⟩
          | .ok s => loop req server initialOffset left s

def start (req : Request) (initialOffset : ℕ) : Loop where
  toCursor := ⟨req.normalizedPath, req.query, initialOffset⟩
  aggregated := []
  seenPages := []
  seenRecords := []
  paginated := none
  expected := none
  visits := []

/-- The offset of the initial query, within the explicit maximum. -/
def initialOffset (req : Request) : Except Raised ℕ := do
  let offset ← validatedOffset req.path req.query false "Initial query"
  refuseIf (exceeds offset req.maxOffset = true)
    (protocolError req.path ("Initial offset " ++ toString offset ++
      " exceeded the explicit maximum " ++ shown req.maxOffset))
  .ok offset

def key (req : Request) : CacheKey :=
  ⟨c.api, req.normalizedPath, serializeQuery c req.query⟩

/-- `_rest_list_traverse_async`, with the clock at its cache look-up and at its cache write. -/
def traverse (req : Request) (server : Server) (readAt writeAt : ℕ) (cache : Cache Record) :
    Outcome × Cache Record :=
  match initialOffset req with
  | .error e => (⟨.error e, 0, []⟩, cache)
  | .ok initialOffset => match read c.cfg readAt (key c req) cache with
    | (some cached, cache) =>
      if exceeds cached.length req.maxRecords then
        (⟨.error (protocolError req.path ("Cached collection exceeded the explicit record limit of "
          ++ shown req.maxRecords)), 0, []⟩, cache)
      else (⟨.ok cached, 0, []⟩, cache)
    | (none, cache) =>
      let outcome := loop c req server initialOffset hardMaxPages (start req initialOffset)
      match outcome.result with
      | .error _ => (outcome, cache)
      | .ok records => (outcome, write c.cfg writeAt (key c req) records cache)

/-- The traversal that `rest_list_paginated_async` asks for. -/
def paginatedRequest (path : String) (baseQuery : Query) (pageSize : ℤ) (maxOffset : Option ℤ)
    (initialOffset : ℕ) : Request where
  path
  query := Dict.set "limit" (.int (max 1 pageSize)) baseQuery
  maxRecords := maxOffset.map fun m => max 0 m - initialOffset + max 1 pageSize
  maxOffset := maxOffset.map (max 0)

/-- `rest_list_paginated_async`. -/
def listPaginated (path : String) (baseQuery : Query) (pageSize : ℤ) (maxOffset : Option ℤ)
    (server : Server) (readAt writeAt : ℕ) (cache : Cache Record) : Outcome × Cache Record :=
  let query := Dict.set "limit" (.int (max 1 pageSize)) baseQuery
  let resolvedMaxOffset := maxOffset.map (max 0)
  match validatedOffset path query false "Initial query" with
  | .error e => (⟨.error e, 0, []⟩, cache)
  | .ok initialOffset =>
    if exceeds initialOffset resolvedMaxOffset then
      (⟨.error (protocolError path ("Initial offset " ++ toString initialOffset ++
        " exceeded the explicit maximum " ++ shown resolvedMaxOffset)), 0, []⟩, cache)
    else traverse c (paginatedRequest path baseQuery pageSize maxOffset initialOffset) server
      readAt writeAt cache

end ProxboxApi.Pagination
