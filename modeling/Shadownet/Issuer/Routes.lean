import Shadownet.Issuer.Server

/-!
# The routes of the issuer server

`Handler.Routes` with `stripScheme`, and how `http.ServeMux` passes a `GET` request on.
-/

namespace Shadownet.Issuer

open Foundation Go

/-- What follows the first `://`. -/
def afterScheme : Bytes → Option Bytes
  | [] => none
  | b :: u => if (bytes "://").isPrefixOf (b :: u) then some ((b :: u).drop 3) else afterScheme u

/-- `stripScheme`. -/
def stripScheme (u : Bytes) : Bytes :=
  let u := (afterScheme u).getD u
  if u.contains 0x2F then u.dropWhile (· != 0x2F) else [0x2F]

/-- The host and the port of a URL. -/
def authorityOf (u : Bytes) : Bytes := ((afterScheme u).getD u).takeWhile (· != 0x2F)

inductive Endpoint where
  | healthz | livez | readyz | serveIssue | serveStatus | serveAgentCard
  deriving DecidableEq

/-- A registered pattern; `{epoch}` follows the path when `wildcard` is set. -/
structure Route where
  method : Bytes
  path : Bytes
  wildcard : Bool
  endpoint : Endpoint

/-- `wellknown.StatusPathPrefix`. -/
def statusPathPrefix : Bytes := bytes "/.well-known/shadownet/status/"

namespace Handler

/-- `Handler.Routes`. -/
def routes (h : Handler) : List Route :=
  [⟨bytes "GET", bytes "/healthz", false, .healthz⟩,
    ⟨bytes "GET", bytes "/livez", false, .livez⟩,
    ⟨bytes "GET", bytes "/readyz", false, .readyz⟩] ++
  match h.cfg.mode with
  | .domain =>
    [⟨bytes "POST", bytes "/.well-known/shadownet/issue", false, .serveIssue⟩,
      ⟨bytes "GET", statusPathPrefix, true, .serveStatus⟩]
  | .keyed =>
    [⟨bytes "GET", bytes "/.well-known/agent-card.json", false, .serveAgentCard⟩,
      ⟨bytes "POST", stripScheme h.cfg.keyedAgentCardSubject.issueURL, false, .serveIssue⟩,
      ⟨bytes "GET", stripScheme h.cfg.keyedAgentCardSubject.statusListBase ++ [0x2F], true,
        .serveStatus⟩]
  | .other => []

end Handler

/-- The mux redirects a path with an empty segment, `.` or `..` to another one. -/
def isCleanPath (path : Bytes) : Bool :=
  ((path.drop 1).splitOn 0x2F).all fun s => s != [] && s != bytes "." && s != bytes ".."

/-- The path value of a request that a route matches. -/
def Route.value (r : Route) (method path : Bytes) : Option Bytes :=
  if r.method ≠ method then none
  else if r.wildcard then
    let value := path.drop r.path.length
    if r.path.isPrefixOf path ∧ value ≠ [] ∧ ¬ value.contains 0x2F then some value else none
  else if r.path = path then some [] else none

/-- Where the mux passes a request, with its path value. A route without a wildcard is more
specific than one with it, and comes before it. -/
def Handler.dispatch (h : Handler) (method path : Bytes) : Option (Endpoint × Bytes) :=
  if isCleanPath path then
    h.routes.findSome? fun r => (r.value method path).map fun value => (r.endpoint, value)
  else none

/-! ## Status requests -/

theorem stripScheme_https {authority path : Bytes} (h : 0x2F ∉ authority) :
    stripScheme (bytes "https://" ++ authority ++ 0x2F :: path) = 0x2F :: path ∧
      authorityOf (bytes "https://" ++ authority ++ 0x2F :: path) = authority := by
  have hafter : afterScheme (bytes "https://" ++ authority ++ 0x2F :: path) =
      some (authority ++ 0x2F :: path) := by
    rw [List.append_assoc]
    rfl
  have hall : ∀ b ∈ authority, (b != 0x2F) = true := by
    intro b hb
    refine bne_iff_ne.mpr ?_
    rintro rfl
    exact h hb
  have hin : (authority ++ 0x2F :: path).contains 0x2F = true := by simp
  constructor
  · rw [stripScheme, hafter, Option.getD_some, if_pos hin, List.dropWhile_append_of_pos hall]
    rfl
  · rw [authorityOf, hafter, Option.getD_some, List.takeWhile_append_of_pos hall]
    simp

section
variable {value : Bytes}

/-- A path value of a status request: not empty, one segment and no relative one. -/
structure IsSegment (value : Bytes) : Prop where
  ne_nil : value ≠ []
  slash : 0x2F ∉ value
  dot : value ≠ bytes "."
  dots : value ≠ bytes ".."

theorem isCleanPath_status (h : IsSegment value) :
    isCleanPath (statusPathPrefix ++ value) = true := by
  have hsplit : ((statusPathPrefix ++ value).drop 1).splitOn 0x2F =
      [bytes ".well-known", bytes "shadownet", bytes "status", value] := by
    have hjoin : (statusPathPrefix ++ value).drop 1 = [0x2F].intercalate
        [bytes ".well-known", bytes "shadownet", bytes "status", value] := by
      rw [List.intercalate_cons_cons, List.intercalate_cons_cons, List.intercalate_cons_cons,
        List.intercalate_singleton]
      rfl
    have hslash : 0x2F ∉ bytes ".well-known" ∧ 0x2F ∉ bytes "shadownet" ∧
        0x2F ∉ bytes "status" := by decide
    rw [hjoin, List.splitOn_intercalate _ (by simp [hslash, h.slash]) (by simp)]
  rw [isCleanPath, hsplit]
  simp only [List.all_cons, List.all_nil, Bool.and_true, Bool.and_eq_true, bne_iff_ne]
  refine ⟨by decide, by decide, by decide, ⟨h.ne_nil, h.dot⟩, h.dots⟩

theorem Route.value_literal {method path : Bytes} {endpoint : Endpoint}
    (h : statusPathPrefix.isPrefixOf path = false) :
    (Route.mk method path false endpoint).value (bytes "GET") (statusPathPrefix ++ value) =
      none := by
  have hne : path ≠ statusPathPrefix ++ value := by
    rintro rfl
    have htrue := List.isPrefixOf_iff_prefix.mpr (List.prefix_append statusPathPrefix value)
    rw [h] at htrue
    cases htrue
  simp [Route.value, hne]

theorem Route.value_post {path : Bytes} {endpoint : Endpoint} :
    (Route.mk (bytes "POST") path false endpoint).value (bytes "GET") (statusPathPrefix ++ value) =
      none := by
  have hmethod : bytes "POST" ≠ bytes "GET" := by decide
  exact if_pos hmethod

theorem Route.value_status (h : IsSegment value) :
    (Route.mk (bytes "GET") statusPathPrefix true .serveStatus).value (bytes "GET")
      (statusPathPrefix ++ value) = some value := by
  have hprefix : statusPathPrefix.isPrefixOf (statusPathPrefix ++ value) = true :=
    List.isPrefixOf_iff_prefix.mpr (List.prefix_append _ _)
  simp [Route.value, h.ne_nil, h.slash]

/-- A request for the status path of the domain mode, when that path is registered. -/
theorem dispatch_status {h : Handler} (hvalue : IsSegment value)
    (hmode : h.cfg.mode = .domain ∨ h.cfg.mode = .keyed ∧
      stripScheme h.cfg.keyedAgentCardSubject.statusListBase ++ [0x2F] = statusPathPrefix) :
    h.dispatch (bytes "GET") (statusPathPrefix ++ value) = some (.serveStatus, value) := by
  have hhealthz := @Route.value_literal value (bytes "GET") (bytes "/healthz") .healthz
    (by decide)
  have hlivez := @Route.value_literal value (bytes "GET") (bytes "/livez") .livez
    (by decide)
  have hreadyz := @Route.value_literal value (bytes "GET") (bytes "/readyz") .readyz
    (by decide)
  have hcard := @Route.value_literal value (bytes "GET") (bytes "/.well-known/agent-card.json")
    .serveAgentCard (by decide)
  rw [Handler.dispatch, if_pos (isCleanPath_status hvalue), Handler.routes]
  rcases hmode with hmode | ⟨hmode, hbase⟩
  · simp only [hmode, List.cons_append, List.nil_append, List.findSome?_cons, hhealthz, hlivez,
      hreadyz, Route.value_post, Route.value_status hvalue, Option.map_none, Option.map_some]
  · simp only [hmode, hbase, List.cons_append, List.nil_append, List.findSome?_cons, hhealthz,
      hlivez, hreadyz, hcard, Route.value_post, Route.value_status hvalue, Option.map_none,
      Option.map_some]

end

end Shadownet.Issuer
