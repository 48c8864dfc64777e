/-
`views/info.py`: the endpoints that the connector declares to the core, against the
routes and methods that `urls.py` and the views have.

* `EndPoint`, `FunctionGroup`, `getEndpoints`: the declaration;
* `endPoint_answered_iff`: a request for a declared endpoint reaches a view with the
  values of the placeholders under their names, unless it is for `getConnection`,
  which has no route, or `getDiscovery`, whose route does not permit the declared
  method, or an earlier route takes the path.
-/
import AdcsConnector.Urls

namespace AdcsConnector

open Route

/-! ### The declaration -/

/-- An endpoint; its context starts with a slash. -/
structure EndPoint where
  name : String
  context : List Part
  method : String
  required : Bool
  deriving DecidableEq

/-- An element of the response. -/
structure FunctionGroup where
  functionGroupCode : String
  kinds : List String
  endPoints : List EndPoint

/-- The `endPoints` of `endpoint_response`. -/
def endpointResponse : List EndPoint := [
  ⟨"removeAuthorityInstance",
    ["v1", "authorityProvider", "authorities", .str "uuid"], "DELETE", false⟩,
  ⟨"validateIssueCertificateAttributes",
    ["v2", "authorityProvider", "authorities", .str "uuid", "certificates", "issue", "attributes",
      "validate"], "POST", false⟩,
  ⟨"validateRevokeCertificateAttributes",
    ["v2", "authorityProvider", "authorities", .str "uuid", "certificates", "revoke", "attributes",
      "validate"], "POST", false⟩,
  ⟨"validateRAProfileAttributes",
    ["v1", "authorityProvider", "authorities", .str "uuid", "raProfile", "attributes",
      "validate"], "POST", false⟩,
  ⟨"revokeCertificate",
    ["v2", "authorityProvider", "authorities", .str "uuid", "certificates", "revoke"],
    "POST", false⟩,
  ⟨"validateAttributes",
    ["v1", "authorityProvider", .str "kind", "attributes", "validate"], "POST", false⟩,
  ⟨"listRevokeCertificateAttributes",
    ["v2", "authorityProvider", "authorities", .str "uuid", "certificates", "revoke",
      "attributes"], "GET", false⟩,
  ⟨"checkHealth", ["v1", "health"], "GET", false⟩,
  ⟨"listAttributeDefinitions",
    ["v1", "authorityProvider", .str "kind", "attributes"], "GET", false⟩,
  ⟨"updateAuthorityInstance",
    ["v1", "authorityProvider", "authorities", .str "uuid"], "POST", false⟩,
  ⟨"getConnection",
    ["v1", "authorityProvider", "authorities", .str "uuid", "connect"], "GET", false⟩,
  ⟨"renewCertificate",
    ["v2", "authorityProvider", "authorities", .str "uuid", "certificates", "renew"],
    "POST", false⟩,
  ⟨"listRAProfileAttributes",
    ["v1", "authorityProvider", "authorities", .str "uuid", "raProfile", "attributes"],
    "GET", false⟩,
  ⟨"getAuthorityInstance", ["v1", "authorityProvider", "authorities", .str "uuid"], "GET", false⟩,
  ⟨"listAuthorityInstances", ["v1", "authorityProvider", "authorities"], "GET", false⟩,
  ⟨"issueCertificate",
    ["v2", "authorityProvider", "authorities", .str "uuid", "certificates", "issue"],
    "POST", false⟩,
  ⟨"listSupportedFunctions", ["v1"], "GET", false⟩,
  ⟨"listIssueCertificateAttributes",
    ["v2", "authorityProvider", "authorities", .str "uuid", "certificates", "issue",
      "attributes"], "GET", false⟩,
  ⟨"createAuthorityInstance", ["v1", "authorityProvider", "authorities"], "POST", false⟩]

/-- The `endPoints` of `discovery_endpoint_response`. -/
def discoveryEndpointResponse : List EndPoint := [
  ⟨"listAttributeDefinitions",
    ["v1", "discoveryProvider", .str "kind", "attributes"], "GET", false⟩,
  ⟨"validateAttributes",
    ["v1", "discoveryProvider", .str "kind", "attributes", "validate"], "POST", false⟩,
  ⟨"getDiscovery", ["v1", "discoveryProvider", "discover", .str "uuid"], "GET", false⟩,
  ⟨"discoverCertificate", ["v1", "discoveryProvider", "discover"], "POST", false⟩,
  ⟨"deleteDiscovery", ["v1", "discoveryProvider", "discover", .str "uuid"], "DELETE", false⟩]

/-- `get_endpoints`. -/
def getEndpoints : List FunctionGroup := [
  ⟨"authorityProvider", ["PyADCS-WinRM"], endpointResponse⟩,
  ⟨"discoveryProvider", ["PyADCS-WinRM"], discoveryEndpointResponse⟩]

/-- The endpoints of all function groups. -/
def endPoints : List EndPoint := getEndpoints.flatMap FunctionGroup.endPoints

/-! ### Against the routes -/

/-- The routes of one authority instance and of one discovery. -/
def instanceContexts : List (List Part) :=
  [["v1", "authorityProvider", "authorities", .str "uuid"],
    ["v1", "discoveryProvider", "discover", .str "uuid"]]

/-- What `urls.py` makes of a declared endpoint: the core is told of one that no
route has, and of one whose route does not permit the method. -/
lemma endPoints_cases : ∀ e ∈ endPoints,
    e.name ∉ ["getConnection", "getDiscovery"] ∧
      (∃ r ∈ urlpatterns, r.1 = e.context ∧ e.method ∈ r.2.methods) ∨
    e.name = "getConnection" ∧ (∀ r ∈ urlpatterns, Apart e.context r.1) ∨
    e.name = "getDiscovery" ∧ ∃ r ∈ urlpatterns, r.1 = e.context ∧ e.method ∉ r.2.methods := by
  decide +kernel

lemma oneSegment_endPoints : ∀ e ∈ endPoints,
    e.context ≠ [] ∧ ∀ part ∈ e.context, part.OneSegment := by
  decide +kernel

lemma mem_instanceContexts_iff : ∀ r ∈ urlpatterns, r.1 ∈ instanceContexts ↔
    r.2 = .authorityInstanceOperations ∨ r.2 = .discoveryOperations := by
  decide +kernel

/-- The paths that an earlier route takes give a value to a kind, not to a uuid. -/
lemma resolve_instanceContexts : ∀ p ∈ instanceContexts, names p = ["uuid"] ∧
    resolve urlpatterns (join (fill p ["attributes"])) ∈
      [some (.getAuthorityAttributes, [("kind", "authorities")]),
        some (.getDiscoveryAttributes, [("kind", "discover")])] := by
  decide +kernel

lemma of_dispatch_url {method : String} {p : List Part} {values : List String} {view : View}
    {kwargs : List (String × String)} (h : dispatch method (url p values) = .call view kwargs) :
    resolve urlpatterns (join (fill p values)) = some (view, kwargs) ∧ method ∈ view.methods := by
  obtain ⟨rest, hpath, hresolve⟩ := of_dispatch_eq_call h
  obtain rfl := (String.append_right_inj "/").mp hpath
  exact hresolve

/-- A request for a route reaches a view with the values under their names when
the route's view permits the method and no earlier route takes the path. -/
lemma answered_iff {p : List Part} {view : View} (hroute : (p, view) ∈ urlpatterns)
    {values : List String} (hlength : values.length = (names p).length)
    (hvalues : ∀ v ∈ values, IsSegment v) (method : String) :
    (∃ found, dispatch method (url p values) = .call found ((names p).zip values)) ↔
      method ∈ view.methods ∧ ¬ (p ∈ instanceContexts ∧ values = ["attributes"]) := by
  have hnames : names p = view.parameters := names_urlpatterns _ hroute
  have hshadowed : Shadowed view values ↔ p ∈ instanceContexts ∧ values = ["attributes"] :=
    and_congr_left' (mem_instanceContexts_iff _ hroute).symm
  rw [← hshadowed]
  constructor
  · rintro ⟨found, hcall⟩
    obtain ⟨hfound, hmethod⟩ := of_dispatch_url hcall
    have hfree : ¬ Shadowed view values := by
      intro htaken
      obtain ⟨hp, rfl⟩ := hshadowed.mp htaken
      obtain ⟨huuid, htaken⟩ := resolve_instanceContexts p hp
      rw [hfound, huuid] at htaken
      simp at htaken
    have hresolve := (resolve_fill hroute (hnames ▸ hlength) hvalues).mpr hfree
    obtain rfl : found = view := (Prod.mk.inj (Option.some.inj (hfound.symm.trans hresolve))).1
    exact ⟨hmethod, hfree⟩
  · rintro ⟨hmethod, hfree⟩
    refine ⟨view, ?_⟩
    rw [url, dispatch_slash, (resolve_fill hroute (hnames ▸ hlength) hvalues).mpr hfree, hnames]
    exact if_pos hmethod

/-- For every declared endpoint and all values of its placeholders, a request with
the declared method reaches a view, with each value under the name of its
placeholder, exactly when the endpoint is neither `getConnection` nor
`getDiscovery` and the request is not for the authority instance or the discovery
`attributes`. -/
theorem endPoint_answered_iff {e : EndPoint} (he : e ∈ endPoints) {values : List String}
    (hlength : values.length = (names e.context).length) (hvalues : ∀ v ∈ values, IsSegment v) :
    (∃ view, dispatch e.method (url e.context values) =
        .call view ((names e.context).zip values)) ↔
      e.name ∉ ["getConnection", "getDiscovery"] ∧
        ¬ (e.context ∈ instanceContexts ∧ values = ["attributes"]) := by
  rcases endPoints_cases e he with ⟨hname, r, hr, hcontext, hmethod⟩ | ⟨hname, hapart⟩ |
    ⟨hname, r, hr, hcontext, hmethod⟩
  · rw [← hcontext] at hlength ⊢
    rw [answered_iff hr hlength hvalues]
    exact and_congr_left' (iff_of_true hmethod hname)
  · refine iff_of_false ?_ fun h => h.1 (by simp [hname])
    rintro ⟨view, hcall⟩
    obtain ⟨hne, hsegment⟩ := oneSegment_endPoints e he
    have hfits : Fits e.context values := ⟨hlength, fun v hv => (hvalues v hv).1⟩
    have hnone := resolve_eq_none_of_apart hne hsegment hfits (fun v hv => (hvalues v hv).2) hapart
    rw [(of_dispatch_url hcall).1] at hnone
    cases hnone
  · rw [← hcontext] at hlength ⊢
    rw [answered_iff hr hlength hvalues]
    exact iff_of_false (fun h => hmethod h.1) fun h => h.1 (by simp [hname])

/-- The certificates of the authority `7` are revoked under the declared path. -/
theorem endPoint_answered_revoke :
    ∃ view, dispatch "POST" (url ["v2", "authorityProvider", "authorities", .str "uuid",
      "certificates", "revoke"] ["7"]) = .call view [("uuid", "7")] :=
  (@endPoint_answered_iff ⟨"revokeCertificate", ["v2", "authorityProvider", "authorities",
    .str "uuid", "certificates", "revoke"], "POST", false⟩ (by decide +kernel) ["7"]
    rfl (by decide)).mpr (by decide +kernel)

end AdcsConnector
