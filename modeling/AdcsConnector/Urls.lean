/-
`pyadcs_connector/urls.py` and the views it names: which view a request is given
to.

* `View`: the views, with the parameters of their functions and the methods that
  `require_http_methods` lets through;
* `urlpatterns`, `dispatch`: the routes, and what becomes of a request before its
  view is called;
* `Shadowed`: the two paths that an earlier route takes away;
* `dispatch_eq_call_iff`: the requests that reach a view are those for its route,
  but for these two paths.
-/
import AdcsConnector.Library.Route

namespace AdcsConnector

open Route

/-! ### Views -/

/-- The functions of `views/`. -/
inductive View where
  | getEndpoints
  | getHealth
  | getAuthorityAttributes
  | validateAuthorityAttributes
  | authorityOperations
  | authorityInstanceOperations
  | getRaprofileAttributes
  | validateRaprofileAttributes
  | getIssueAttributes
  | validateIssueAttributes
  | getRevokeAttributes
  | validateRevokeAttributes
  | issueCertificate
  | renewCertificate
  | revokeCertificate
  | identifyCertificate
  | getDiscoveryAttributes
  | validateDiscoveryAttributes
  | startDiscovery
  | discoveryOperations
  | getWinrmTransportConfiguration
  | getCaNames
  | getTemplateNames
  | getDiscoveryCaSelectConfiguration
  | getRaprofileCaSelectConfiguration
  deriving DecidableEq

namespace View

/-- The parameters of the function, besides the request. -/
def parameters : View → List String
  | getEndpoints | getHealth | authorityOperations | startDiscovery => []
  | getAuthorityAttributes | validateAuthorityAttributes | getDiscoveryAttributes
  | validateDiscoveryAttributes => ["kind"]
  | getWinrmTransportConfiguration => ["kind", "winrm_transport"]
  | getCaNames | getTemplateNames => ["authority_instance_uuid"]
  | getDiscoveryCaSelectConfiguration | getRaprofileCaSelectConfiguration =>
      ["ca_select_method", "authority_instance_uuid"]
  | authorityInstanceOperations | getRaprofileAttributes | validateRaprofileAttributes
  | getIssueAttributes | validateIssueAttributes | getRevokeAttributes | validateRevokeAttributes
  | issueCertificate | renewCertificate | revokeCertificate | identifyCertificate
  | discoveryOperations => ["uuid"]

/-- `require_http_methods`. -/
def methods : View → List String
  | authorityOperations => ["GET", "POST"]
  | authorityInstanceOperations => ["GET", "POST", "DELETE"]
  | discoveryOperations => ["POST", "DELETE"]
  | validateAuthorityAttributes | validateRaprofileAttributes | validateIssueAttributes
  | validateRevokeAttributes | issueCertificate | renewCertificate | revokeCertificate
  | identifyCertificate | validateDiscoveryAttributes | startDiscovery => ["POST"]
  | _ => ["GET"]

end View

/-! ### Routes -/

/-- `django.urls.path`, with the route segment by segment. -/
def path (route : List Part) (view : View) : List Part × View := (route, view)

/-- `urlpatterns`. -/
def urlpatterns : List (List Part × View) := [
  path ["v1"] .getEndpoints,
  path ["v1", "health"] .getHealth,
  path ["v1", "authorityProvider", .str "kind", "attributes"] .getAuthorityAttributes,
  path ["v1", "authorityProvider", .str "kind", "attributes", "validate"]
    .validateAuthorityAttributes,
  path ["v1", "authorityProvider", "authorities"] .authorityOperations,
  path ["v1", "authorityProvider", "authorities", .str "uuid"] .authorityInstanceOperations,
  path ["v1", "authorityProvider", "authorities", .str "uuid", "raProfile", "attributes"]
    .getRaprofileAttributes,
  path ["v1", "authorityProvider", "authorities", .str "uuid", "raProfile", "attributes",
    "validate"]
    .validateRaprofileAttributes,
  path ["v2", "authorityProvider", "authorities", .str "uuid", "certificates", "issue",
    "attributes"]
    .getIssueAttributes,
  path ["v2", "authorityProvider", "authorities", .str "uuid", "certificates", "issue",
    "attributes", "validate"]
    .validateIssueAttributes,
  path ["v2", "authorityProvider", "authorities", .str "uuid", "certificates", "revoke",
    "attributes"]
    .getRevokeAttributes,
  path ["v2", "authorityProvider", "authorities", .str "uuid", "certificates", "revoke",
    "attributes", "validate"]
    .validateRevokeAttributes,
  path ["v2", "authorityProvider", "authorities", .str "uuid", "certificates", "issue"]
    .issueCertificate,
  path ["v2", "authorityProvider", "authorities", .str "uuid", "certificates", "renew"]
    .renewCertificate,
  path ["v2", "authorityProvider", "authorities", .str "uuid", "certificates", "revoke"]
    .revokeCertificate,
  path ["v2", "authorityProvider", "authorities", .str "uuid", "certificates", "identify"]
    .identifyCertificate,
  path ["v1", "discoveryProvider", .str "kind", "attributes"] .getDiscoveryAttributes,
  path ["v1", "discoveryProvider", .str "kind", "attributes", "validate"]
    .validateDiscoveryAttributes,
  path ["v1", "discoveryProvider", "discover"] .startDiscovery,
  path ["v1", "discoveryProvider", "discover", .str "uuid"] .discoveryOperations,
  path ["v1", "callbacks", "authority", "winrmConfig", .str "kind", .str "winrm_transport"]
    .getWinrmTransportConfiguration,
  path ["v1", "callbacks", "discovery", "listCertificateAuthority", .str "authority_instance_uuid"]
    .getCaNames,
  path ["v1", "callbacks", "discovery", "listTemplate", .str "authority_instance_uuid"]
    .getTemplateNames,
  path ["v1", "callbacks", "discovery", "caSelect", .str "ca_select_method",
    .str "authority_instance_uuid"]
    .getDiscoveryCaSelectConfiguration,
  path ["v1", "callbacks", "raProfile", "caSelect", .str "ca_select_method",
    .str "authority_instance_uuid"]
    .getRaprofileCaSelectConfiguration]

/-- What becomes of a request: Django answers it with 404 or 405, or calls a view
with the values of the placeholders. -/
inductive Dispatch where
  | notFound
  | notAllowed (permitted : List String)
  | call (view : View) (kwargs : List (String × String))
  deriving DecidableEq

/-- The view for a path, which is matched without its first slash, and the check
of its decorator. -/
def dispatch (method pathInfo : String) : Dispatch :=
  match pathInfo.toList with
  | '/' :: rest =>
      match resolve urlpatterns (String.ofList rest) with
      | none => .notFound
      | some (view, kwargs) =>
          if method ∈ view.methods then .call view kwargs else .notAllowed view.methods
  | _ => .notFound

/-- The path of a pattern for the values of its placeholders. -/
def url (p : List Part) (values : List String) : String := "/" ++ join (fill p values)

/-- A value that `<str:name>` takes. -/
def IsSegment (v : String) : Prop := v ≠ "" ∧ '/' ∉ v.toList

instance : DecidablePred IsSegment := fun v => inferInstanceAs (Decidable (v ≠ "" ∧ _))

/-! ### The table -/

/-- The path of an authority instance, or of a discovery, that an earlier route
matches: `authorities` and `discover` are taken for a kind there. -/
def Shadowed (view : View) (values : List String) : Prop :=
  (view = .authorityInstanceOperations ∨ view = .discoveryOperations) ∧ values = ["attributes"]

instance (view : View) (values : List String) : Decidable (Shadowed view values) :=
  inferInstanceAs (Decidable ((_ ∨ _) ∧ _))

lemma nodup_urlpatterns : (urlpatterns.map Prod.snd).Nodup := by decide +kernel

/-- Every view is given the parameters that it takes. -/
lemma names_urlpatterns : ∀ r ∈ urlpatterns, names r.1 = r.2.parameters := by decide +kernel

lemma oneSegment_urlpatterns : ∀ r ∈ urlpatterns, r.1 ≠ [] ∧ ∀ part ∈ r.1, part.OneSegment := by
  decide +kernel

/-- Two routes one of which takes paths of the other: a literal of the second
stands where the first has its placeholder. -/
def Shadows (r q : List Part × View) : Prop :=
  r = path ["v1", "authorityProvider", .str "kind", "attributes"] .getAuthorityAttributes ∧
    q = path ["v1", "authorityProvider", "authorities", .str "uuid"]
      .authorityInstanceOperations ∨
  r = path ["v1", "discoveryProvider", .str "kind", "attributes"] .getDiscoveryAttributes ∧
    q = path ["v1", "discoveryProvider", "discover", .str "uuid"] .discoveryOperations

instance (r q : List Part × View) : Decidable (Shadows r q) :=
  inferInstanceAs (Decidable (_ ∧ _ ∨ _ ∧ _))

/-- An earlier route is apart from a later one, or shadows it. -/
lemma apart_or_shadows : ∀ q ∈ urlpatterns, ∀ r ∈ before urlpatterns q.2,
    Apart r.1 q.1 ∨ Shadows r q := by
  decide +kernel

lemma exists_shadows : ∀ q ∈ urlpatterns,
    q.2 = .authorityInstanceOperations ∨ q.2 = .discoveryOperations →
      ∃ r ∈ before urlpatterns q.2, Shadows r q := by
  decide +kernel

lemma Shadows.view_eq {r q : List Part × View} (h : Shadows r q) :
    q.2 = .authorityInstanceOperations ∨ q.2 = .discoveryOperations := by
  rcases h with ⟨-, rfl⟩ | ⟨-, rfl⟩
  · exact .inl rfl
  · exact .inr rfl

/-- The value of the second route meets the literal of the first. -/
lemma Shadows.capture_eq_none_iff {r q : List Part × View} (h : Shadows r q)
    {values : List String} (hlength : values.length = (names q.1).length) :
    capture r.1 (fill q.1 values) = none ↔ values ≠ ["attributes"] := by
  rcases h with ⟨rfl, rfl⟩ | ⟨rfl, rfl⟩ <;>
  · obtain ⟨v, rfl⟩ := List.length_eq_one_iff.mp hlength
    by_cases hv : v = "attributes" <;> simp [path, fill, capture, Part.Accepts, hv]

/-- The path of a route is resolved to it, unless an earlier one takes it. -/
lemma resolve_fill {p : List Part} {view : View} (hroute : (p, view) ∈ urlpatterns)
    {values : List String} (hlength : values.length = view.parameters.length)
    (hvalues : ∀ v ∈ values, IsSegment v) :
    resolve urlpatterns (join (fill p values)) = some (view, view.parameters.zip values) ↔
      ¬ Shadowed view values := by
  have hnames : names p = view.parameters := names_urlpatterns _ hroute
  rw [← hnames] at hlength
  have hfits : Fits p values := ⟨hlength, fun v hv => (hvalues v hv).1⟩
  obtain ⟨hne, hsegment⟩ := oneSegment_urlpatterns _ hroute
  rw [← hnames, resolve_fill_iff nodup_urlpatterns hroute hne hsegment hfits
    fun v hv => (hvalues v hv).2]
  constructor
  · rintro hearlier ⟨hview, hattributes⟩
    obtain ⟨r, hr, hshadows⟩ := exists_shadows _ hroute hview
    exact (hshadows.capture_eq_none_iff hlength).mp (hearlier r hr) hattributes
  · intro hshadowed r hr
    rcases apart_or_shadows _ hroute r hr with hapart | hshadows
    · by_contra hcapture
      have hnone := capture_eq_none_of_apart hapart hcapture
      rw [capture_fill hfits] at hnone
      cases hnone
    · refine (hshadows.capture_eq_none_iff hlength).mpr fun hattributes => ?_
      exact hshadowed ⟨hshadows.view_eq, hattributes⟩

lemma dispatch_slash (method s : String) :
    dispatch method ("/" ++ s) =
      match resolve urlpatterns s with
      | none => .notFound
      | some (view, kwargs) =>
          if method ∈ view.methods then .call view kwargs else .notAllowed view.methods := by
  have hslash : ("/" ++ s).toList = '/' :: s.toList := by rw [String.toList_append]; rfl
  rw [dispatch, hslash]
  simp only [String.ofList_toList]

lemma of_dispatch_eq_call {method pathInfo : String} {view : View}
    {kwargs : List (String × String)} (h : dispatch method pathInfo = .call view kwargs) :
    ∃ rest, pathInfo = "/" ++ rest ∧ resolve urlpatterns rest = some (view, kwargs) ∧
      method ∈ view.methods := by
  rw [dispatch] at h
  split at h
  · next rest hpath =>
      refine ⟨String.ofList rest, String.ext (by rw [String.toList_append, hpath]; simp), ?_⟩
      split at h
      · cases h
      · next found values hresolve =>
          split_ifs at h with hmethod
          · cases h
            exact ⟨hresolve, hmethod⟩
  · cases h

/-- A request reaches a view with arguments exactly when its path is that of the
view's route with these arguments for the placeholders, in order, none of them
empty or with a slash; the method is one that the view permits; and the path is
neither `…/authorityProvider/authorities/attributes` nor
`…/discoveryProvider/discover/attributes`, which never reach the view of an
authority or of a discovery. -/
theorem dispatch_eq_call_iff (method pathInfo : String) (view : View)
    (kwargs : List (String × String)) :
    dispatch method pathInfo = .call view kwargs ↔
      method ∈ view.methods ∧ ∃ p values, (p, view) ∈ urlpatterns ∧
        values.length = view.parameters.length ∧ (∀ v ∈ values, IsSegment v) ∧
        ¬ Shadowed view values ∧ pathInfo = url p values ∧
        kwargs = view.parameters.zip values := by
  constructor
  · intro hcall
    obtain ⟨rest, rfl, hresolve, hmethod⟩ := of_dispatch_eq_call hcall
    obtain ⟨p, values, hroute, hfits, hslash, rfl, rfl⟩ := of_resolve_eq_some hresolve
    have hnames : names p = view.parameters := names_urlpatterns _ hroute
    have hlength : values.length = view.parameters.length := hnames ▸ hfits.length_eq
    have hvalues : ∀ v ∈ values, IsSegment v := fun v hv => ⟨hfits.ne_empty v hv, hslash v hv⟩
    rw [hnames] at hresolve ⊢
    exact ⟨hmethod, p, values, hroute, hlength, hvalues,
      (resolve_fill hroute hlength hvalues).mp hresolve, rfl, rfl⟩
  · rintro ⟨hmethod, p, values, hroute, hlength, hvalues, hshadowed, rfl, rfl⟩
    rw [url, dispatch_slash, (resolve_fill hroute hlength hvalues).mpr hshadowed]
    exact if_pos hmethod

end AdcsConnector
