/-
The create and the update requests on authority instances, each run to its end:
`views/authority_instance.py` over `services/authority_instance.py`.

* `save`, `updateAuthorityInstance`, `createAuthorityInstance`: the services;
  `atomic`, `authorityOperations`, `authorityInstanceOperations`: the views;
* `lastValue`: the datum that `merge_attributes` keeps for a name
  (`getAttributeValue_mergeAttributes`);
* `StoredAgrees`: the row stored agrees with the request and with itself;
* `stored_agrees_iff`: it does exactly when, for every attribute of the
  definitions, the first value requested is the one of the last attribute of its
  name, and the values for the columns have the types of these (`Fits`); a request
  that raises changes no row.
-/
import AdcsConnector.Authority.Instance
import AdcsConnector.AuthorityQueries

namespace AdcsConnector

namespace Authority

namespace Requests

open Program

/-! ### The surroundings of a request -/

/-- What a request finds around it besides the sessions: the fields of an object
that its session is made of, the columns, and Python's `%s`. -/
structure RequestEnvironment extends Environment where
  credentials : Authority.AuthorityInstance → AuthorityInstance
  columns : Columns
  format : Json → String

/-- The table with its id sequence, and the host. -/
structure Server where
  rows : List AuthorityInstance
  seq : ℕ
  wire : Wire

/-- An exception of the services, or one raised below them. -/
abbrev RequestError := AuthorityError ⊕ PyError

/-- What a request does. -/
abbrev Request := Program Server RequestError

/-- What a service does on a session. -/
def onWire {α : Type} (m : Session α) : Request α := fun s =>
  (m s.wire).map fun r => (r.1.mapError .inr, { s with wire := r.2 })

/-- `transaction.atomic`: an exception takes the rows back; the sequence goes on. -/
def atomic {α : Type} (m : Request α) : Request α := fun s =>
  match m s with
  | some (.error e, t) => some (.error e, { t with rows := s.rows })
  | r => r

/-! ### The services -/

/-- The statements of `Model.save`: an INSERT of a new object, and of another
one an UPDATE by primary key and, when that has matched no row, an INSERT. -/
def writeRow (a row : AuthorityInstance) : Request AuthorityInstance := fun s =>
  match a.id with
  | none =>
      some (.ok { a with id := some s.seq },
        { s with rows := s.rows ++ [{ row with id := some s.seq }], seq := s.seq + 1 })
  | some id =>
      if ∃ r ∈ s.rows, r.id = some id then
        some (.ok a, { s with rows := s.rows.map fun r => if r.id = some id then row else r })
      else some (.ok a, { s with rows := s.rows ++ [row] })

/-- `Model.save`. -/
def save (c : Columns) (a : AuthorityInstance) : Request AuthorityInstance := do
  let row ← lift ((columnsOf c a).mapError .inr)
  writeRow a row

/-- `verify_connection`. -/
def verifyConnection (env : RequestEnvironment) (a : AuthorityInstance) : Session Unit :=
  match a.transport with
  | .str transport =>
      AdcsConnector.verifyConnection env.toEnvironment (env.credentials a) transport
  | transport =>
      lift (.error (.remotingException ("Unsupported transport type: " ++ env.format transport)))

/-- `update_authority_instance`. -/
def updateAuthorityInstance (env : RequestEnvironment) (request : AuthorityRequest)
    (authorityInstance : AuthorityInstance) : Request AuthorityInstance := do
  let authorityInstance ←
    lift ((Authority.updateAuthorityInstance request authorityInstance).mapError .inl)
  onWire (verifyConnection env authorityInstance)
  save env.columns authorityInstance

/-- `create_authority_instance`, with the uuid that the new object draws. -/
def createAuthorityInstance (env : RequestEnvironment) (uuid : UUID) (request : AuthorityRequest) :
    Request AuthorityInstance := fun s =>
  if ∃ r ∈ s.rows, r.name = request.name then
    some (.error (.inl (.nameExists request.name)), s)
  else updateAuthorityInstance env request (newInstance uuid request) s

/-! ### The views -/

/-- `AuthorityInstance.objects.get(uuid=uuid)`, `none` standing for
`DoesNotExist`. -/
def getInstance (uuid : UUID) : Request (Option AuthorityInstance) := fun s =>
  match s.rows.filter fun r => r.uuid = uuid with
  | [] => some (.ok none, s)
  | [a] => some (.ok (some a), s)
  | rows =>
      some (.error (.inr (.exception ("get() returned more than one AuthorityInstance -- " ++
        "it returned " ++ toString rows.length ++ "!"))), s)

/-- POST of `authority_operations`. -/
def authorityOperations (env : RequestEnvironment) (uuid : UUID) (request : AuthorityRequest) :
    Request AuthorityInstance :=
  atomic (createAuthorityInstance env uuid request)

/-- The object of a uuid, updated; `none` is the answer 404. -/
def updateInstance (env : RequestEnvironment) (uuid : UUID) (request : AuthorityRequest) :
    Request (Option AuthorityInstance) := do
  match ← getInstance uuid with
  | none => return none
  | some authorityInstance => some <$> updateAuthorityInstance env request authorityInstance

/-- POST of `authority_instance_operations`. -/
def authorityInstanceOperations (env : RequestEnvironment) (uuid : UUID)
    (request : AuthorityRequest) : Request (Option AuthorityInstance) :=
  atomic (updateInstance env uuid request)

/-! ### What is merged -/

/-- The first datum of the last attribute of a name. -/
def lastValue (attributeName : String) (attributes : List InstanceAttribute) : Json :=
  match (attributes.filter fun attr => attr.name = attributeName).getLast? with
  | some ⟨_, some (data :: _)⟩ => data
  | _ => .str ""

/-- The names of the authority attribute definitions. -/
def authorityAttributeNames : List String :=
  ["authority_adcs_info", "authority_credential_type", "authority_credential",
    "authority_server_address", "authority_use_https", "authority_winrm_port",
    "authority_winrm_transport", "authority_winrm_transport_config"]

lemma authorityAttributeNames_nodup : authorityAttributeNames.Nodup := by decide

lemma eq_of_getAllAuthorityAttributesList {kind : String} {transport : Json} {names : List String}
    (h : getAllAuthorityAttributesList kind transport = .ok names) :
    names = authorityAttributeNames ∧ transport = .str "credssp" := by
  unfold getAllAuthorityAttributesList at h
  obtain ⟨_, -, h⟩ := Except.bind_eq_ok_iff.mp h
  split at h
  · cases h
    exact ⟨rfl, rfl⟩
  · cases h

/-- The attribute requested that is merged is the last one of its name. -/
lemma get?_requestAttributes (attributes : List InstanceAttribute) (name : String) :
    Dict.get? (Dict.ofPairs (attributes.map fun val => (val.name, val))) name =
      (attributes.filter fun attr => attr.name = name).getLast? := by
  rw [Dict.get?_ofPairs, List.filter_map, List.getLast?_map, Option.map_map]
  exact congrFun Option.map_id _

/-- The attributes stored have the last value of every name defined. -/
lemma getAttributeValue_mergeAttributes {requestAttributes attributes : List InstanceAttribute}
    {names : List String} (hnodup : names.Nodup)
    (h : mergeAttributes requestAttributes names = .ok attributes) (name : String) :
    getAttributeValue name attributes =
      if name ∈ names then lastValue name requestAttributes else .str "" := by
  induction names generalizing name attributes with
  | nil =>
      cases h
      rfl
  | cons n names ih =>
      obtain ⟨hn, hnodup⟩ := List.nodup_cons.mp hnodup
      rw [mergeAttributes, get?_requestAttributes] at h
      -- after `n` there is no value of `n`
      have hrest : ∀ {rest}, mergeAttributes requestAttributes names = .ok rest →
          getAttributeValue n rest = .str "" := fun hmerge => by
        rw [ih hnodup hmerge n, if_neg hn]
      cases hlast : (requestAttributes.filter fun attr => attr.name = n).getLast? with
      | none =>
          rw [hlast] at h
          by_cases hname : name = n
          · subst hname
            rw [hrest h, if_pos List.mem_cons_self, lastValue, hlast]
          · rw [ih hnodup h]
            simp only [List.mem_cons, hname, false_or]
      | some attr =>
          obtain ⟨m, content⟩ := attr
          rw [hlast] at h
          cases content with
          | none => cases h
          | some content =>
              obtain ⟨rest, hmerge, ⟨⟩⟩ := Except.bind_eq_ok_iff.mp h
              by_cases hname : name = n
              · subst hname
                rw [if_pos List.mem_cons_self, lastValue, hlast, getAttributeValue, if_pos rfl]
                cases content with
                | nil => exact hrest hmerge
                | cons data content => rfl
              · rw [getAttributeValue, if_neg (Ne.symm hname), ih hnodup hmerge]
                simp only [List.mem_cons, hname, false_or]

/-! ### What is stored -/

/-- The row stored agrees with the request, and its columns are equal to the values of
its attributes. -/
structure StoredAgrees (c : Columns) (request : AuthorityRequest) (row : AuthorityInstance) :
    Prop where
  attributes : ∀ name ∈ authorityAttributeNames,
    c.Equal (getAttributeValue name row.attributes) (getAttributeValue name request.attributes)
  transport : c.Equal row.transport (getAttributeValue "authority_winrm_transport" row.attributes)
  address : c.Equal row.address (getAttributeValue "authority_server_address" row.attributes)
  https : c.Equal row.https (getAttributeValue "authority_use_https" row.attributes)
  port : c.Equal row.port (getAttributeValue "authority_winrm_port" row.attributes)
  credential : row.credential = getAttributeValue "authority_credential" row.attributes

/-- For every attribute of the definitions, the first value requested is the one
of the last attribute of its name; the address is a string, `use_https` a boolean and
the port an integer, or a number that is equal to one. -/
structure Fits (c : Columns) (request : AuthorityRequest) : Prop where
  repeats : ∀ name ∈ authorityAttributeNames,
    c.Equal (lastValue name request.attributes) (getAttributeValue name request.attributes)
  address : ∃ t, lastValue "authority_server_address" request.attributes = .str t
  https : ∃ b : Bool,
    intValue c.integer (lastValue "authority_use_https" request.attributes) = some (b.toNat : ℤ)
  port : ∃ n, intValue c.integer (lastValue "authority_winrm_port" request.attributes) = some n

/-- The id of a row does not matter. -/
lemma StoredAgrees.with_id {c : Columns} {request : AuthorityRequest} {row : AuthorityInstance}
    (h : StoredAgrees c request row) (id : Option ℕ) :
    StoredAgrees c request { row with id := id } :=
  ⟨h.attributes, h.transport, h.address, h.https, h.port, h.credential⟩

variable {env : RequestEnvironment} {request : AuthorityRequest} {a b row : AuthorityInstance}
  {s : Server}

/-- A string column holds the value written to it when it is a string. -/
lemma equal_charField_iff {c : Columns} {maxLength : ℕ} {v w : Json}
    (h : c.charField maxLength v = .ok w) : c.Equal w v ↔ ∃ t, v = .str t := by
  obtain ⟨t, rfl⟩ := c.charField_ok h
  rw [c.equal_str]
  refine ⟨fun hv => ⟨t, hv⟩, ?_⟩
  rintro ⟨t', rfl⟩
  exact (c.charField_str h).symm

/-- A boolean column holds the value written to it when it is a boolean, or the number
that is equal to one. -/
lemma equal_booleanField_iff {c : Columns} {v w : Json} (h : c.booleanField v = .ok w) :
    c.Equal w v ↔ ∃ b : Bool, intValue c.integer v = some (b.toNat : ℤ) := by
  constructor
  · intro heq
    obtain ⟨b, rfl⟩ := c.booleanField_ok h
    exact ⟨b, (c.equal_int rfl).mp heq⟩
  · rintro ⟨b, hv⟩
    rw [c.booleanField_int hv h]
    exact (c.equal_int rfl).mpr hv

/-- An integer column holds the value written to it when it is an integer. -/
lemma equal_integerField_iff {c : Columns} {v w : Json} (h : c.integerField v = .ok w) :
    c.Equal w v ↔ ∃ n, intValue c.integer v = some n := by
  have hint : ∀ n : ℤ, intValue c.integer (.number (toString n)) = some n := c.integer_toString
  constructor
  · intro heq
    obtain ⟨n, rfl⟩ := c.integerField_ok h
    exact ⟨n, (c.equal_int (hint n)).mp heq⟩
  · rintro ⟨n, hv⟩
    rw [c.integerField_int hv h]
    exact (c.equal_int (hint n)).mpr hv

/-- The row written for an update agrees exactly when its request fits. -/
lemma storedAgrees_iff {c : Columns} (hassign : Authority.updateAuthorityInstance request a = .ok b)
    (hrow : columnsOf c b = .ok row) : StoredAgrees c request row ↔ Fits c request := by
  unfold Authority.updateAuthorityInstance at hassign
  obtain ⟨_, -, hassign⟩ := Except.bind_eq_ok_iff.mp hassign
  obtain ⟨names, hnames, hassign⟩ := Except.bind_eq_ok_iff.mp hassign
  obtain ⟨attributes, hmerge, ⟨⟩⟩ := Except.bind_eq_ok_iff.mp hassign
  obtain ⟨rfl, hcredssp⟩ := eq_of_getAllAuthorityAttributesList hnames
  obtain ⟨heq, haddress, hhttps, hport, htransport⟩ := columnsOf_cases hrow
  have hcredential : row.credential = getAttributeValue "authority_credential" row.attributes := by
    rw [heq]
  have hvalue : ∀ name ∈ authorityAttributeNames,
      getAttributeValue name row.attributes = lastValue name request.attributes := by
    intro name hname
    rw [heq]
    exact (getAttributeValue_mergeAttributes authorityAttributeNames_nodup hmerge name).trans
      (if_pos hname)
  have hlast : ∀ name ∈ authorityAttributeNames,
      getAttributeValue name attributes = lastValue name request.attributes := by
    intro name hname
    rw [← hvalue name hname, heq]
  -- the names that the columns are read from are defined
  have haddressName : "authority_server_address" ∈ authorityAttributeNames := by decide
  have hhttpsName : "authority_use_https" ∈ authorityAttributeNames := by decide
  have hportName : "authority_winrm_port" ∈ authorityAttributeNames := by decide
  have htransportName : "authority_winrm_transport" ∈ authorityAttributeNames := by decide
  have haddress := equal_charField_iff (hlast _ haddressName ▸ haddress)
  have hhttps := equal_booleanField_iff (hlast _ hhttpsName ▸ hhttps)
  have hport := equal_integerField_iff (hlast _ hportName ▸ hport)
  have htransport : row.transport = .str "credssp" :=
    c.charField_str (by rw [← htransport]; exact congrArg _ hcredssp.symm)
  constructor
  · intro h
    refine ⟨fun name hname => hvalue name hname ▸ h.attributes name hname, ?_, ?_, ?_⟩
    · exact haddress.mp (hvalue _ haddressName ▸ h.address)
    · exact hhttps.mp (hvalue _ hhttpsName ▸ h.https)
    · exact hport.mp (hvalue _ hportName ▸ h.port)
  · intro h
    refine ⟨fun name hname => ?_, ?_, ?_, ?_, ?_, hcredential⟩
    · rw [hvalue name hname]
      exact h.repeats name hname
    · -- the transport column has the first value requested
      have hrepeats := h.repeats _ htransportName
      rw [hcredssp] at hrepeats
      rw [htransport, hvalue _ htransportName]
      exact c.equal_comm hrepeats
    · rw [hvalue _ haddressName]
      exact haddress.mpr h.address
    · rw [hvalue _ hhttpsName]
      exact hhttps.mpr h.https
    · rw [hvalue _ hportName]
      exact hport.mpr h.port

/-! ### What a request does -/

/-- A connection is verified, or not, in some state of the host. -/
lemma exists_verifyConnection (env : RequestEnvironment) (a : AuthorityInstance) (w : Wire) :
    ∃ r w', verifyConnection env a w = some (r, w') := by
  have hends : verifyConnection env a w ≠ none := by
    unfold verifyConnection
    cases a.transport with
    | str transport =>
        simp only [AdcsConnector.verifyConnection]
        split_ifs
        · refine bind_ne_none (Option.some_ne_none _) fun host w _ => ?_
          refine bind_ne_none (connect_ne_none host w) fun _ w _ => ?_
          exact bind_ne_none (runPs_ne_none host _ w) fun _ w _ => disconnect_ne_none host w
        · exact Option.some_ne_none _
    | _ => exact Option.some_ne_none _
  obtain ⟨⟨r, w'⟩, h⟩ := Option.ne_none_iff_exists'.mp hends
  exact ⟨r, w', h⟩

/-- A row is written, and the object returned has its id. -/
lemma exists_writeRow (b row : AuthorityInstance) (s : Server) :
    ∃ c t, writeRow b row s = some (.ok c, t) := by
  unfold writeRow
  split
  · exact ⟨_, _, rfl⟩
  · split_ifs <;> exact ⟨_, _, rfl⟩

/-- An update goes on from `verify_connection` with what this returns. -/
lemma run_update_of_assign {r : Except PyError Unit} {w : Wire}
    (hassign : Authority.updateAuthorityInstance request a = .ok b)
    (hverify : verifyConnection env b s.wire = some (r, w)) :
    updateAuthorityInstance env request a s =
      match r with
      | .error e => some (.error (.inr e), { s with wire := w })
      | .ok () => save env.columns b { s with wire := w } := by
  have hwire : onWire (verifyConnection env b) s =
      some (r.mapError .inr, { s with wire := w }) := by
    rw [onWire, hverify]
    rfl
  rw [updateAuthorityInstance, hassign, show (Except.ok b).mapError Sum.inl =
    (.ok b : Except RequestError _) from rfl, lift_ok, pure_bind]
  cases r with
  | error e => exact run_bind_eq_some.mpr (.inl ⟨_, hwire, rfl⟩)
  | ok u =>
      have hverified : Returns (onWire (verifyConnection env b)) s u { s with wire := w } := hwire
      exact hverified.run_bind _

/-- An update raises and leaves the rows alone, or writes the row of its object. -/
lemma run_update (env : RequestEnvironment) (request : AuthorityRequest) (a : AuthorityInstance)
    (s : Server) : ∃ outcome t, updateAuthorityInstance env request a s = some (outcome, t) ∧
      ((∃ e, outcome = .error e) ∧ t.rows = s.rows ∨ ∃ b row w,
        Authority.updateAuthorityInstance request a = .ok b ∧ columnsOf env.columns b = .ok row ∧
          writeRow b row { s with wire := w } = some (outcome, t)) := by
  cases hassign : Authority.updateAuthorityInstance request a with
  | error e =>
      refine ⟨_, s, ?_, .inl ⟨⟨.inl e, rfl⟩, rfl⟩⟩
      rw [updateAuthorityInstance, hassign]
      rfl
  | ok b =>
      obtain ⟨r, w, hverify⟩ := exists_verifyConnection env b s.wire
      rw [run_update_of_assign hassign hverify]
      cases r with
      | error e => exact ⟨_, _, rfl, .inl ⟨⟨_, rfl⟩, rfl⟩⟩
      | ok u =>
          simp only [save]
          cases hrow : columnsOf env.columns b with
          | error e => exact ⟨_, _, rfl, .inl ⟨⟨_, rfl⟩, rfl⟩⟩
          | ok row =>
              obtain ⟨c, t, hwrite⟩ := exists_writeRow b row { s with wire := w }
              exact ⟨.ok c, t, hwrite, .inr ⟨b, row, w, rfl, hrow, hwrite⟩⟩

/-- The rows after a transaction: those of before when it raises. -/
lemma exists_atomic {α : Type} {m : Request α} {outcome : Except RequestError α} {t : Server}
    (h : m s = some (outcome, t)) : ∃ t', atomic m s = some (outcome, t') ∧
      (∀ e, outcome = .error e → t'.rows = s.rows) ∧ ∀ x, outcome = .ok x → t' = t := by
  rw [atomic, h]
  cases outcome with
  | error e => exact ⟨{ t with rows := s.rows }, rfl, fun _ _ => rfl, nofun⟩
  | ok x => exact ⟨t, rfl, nofun, fun _ _ => rfl⟩

/-- A new object is written as a new row. -/
lemma writeRow_of_new {outcome : Except RequestError AuthorityInstance} {t : Server}
    (hid : b.id = none) (h : writeRow b row s = some (outcome, t)) :
    t.rows = s.rows ++ [{ row with id := some s.seq }] := by
  rw [writeRow, hid] at h
  cases h
  rfl

/-- The row of an object takes the place of the row with its id. -/
lemma writeRow_of_row {outcome : Except RequestError AuthorityInstance} {t : Server}
    (hid : b.id ≠ none) (hrow : ∃ r ∈ s.rows, r.id = b.id)
    (h : writeRow b row s = some (outcome, t)) :
    t.rows = s.rows.map fun r => if r.id = b.id then row else r := by
  obtain ⟨id, hsome⟩ := Option.ne_none_iff_exists'.mp hid
  rw [hsome] at hrow ⊢
  rw [writeRow, hsome] at h
  simp only [if_pos hrow] at h
  cases h
  rfl

/-- A create raises and stores nothing, or adds its row. -/
lemma run_create (env : RequestEnvironment) (request : AuthorityRequest) (uuid : UUID)
    (s : Server) : ∃ outcome t, authorityOperations env uuid request s = some (outcome, t) ∧
      (∀ e, outcome = .error e → t.rows = s.rows) ∧
      ∀ a, outcome = .ok a → ∃ row, t.rows = s.rows ++ [row] ∧ row.uuid = uuid ∧
        (StoredAgrees env.columns request row ↔ Fits env.columns request) := by
  by_cases hname : ∃ r ∈ s.rows, r.name = request.name
  · have hcreate : createAuthorityInstance env uuid request s =
        some (.error (.inl (.nameExists request.name)), s) := if_pos hname
    obtain ⟨t, hatomic, hrows, -⟩ := exists_atomic hcreate
    exact ⟨_, t, hatomic, hrows, nofun⟩
  · obtain ⟨outcome, t, hrun, hwritten⟩ := run_update env request (newInstance uuid request) s
    have hcreate : createAuthorityInstance env uuid request s = some (outcome, t) :=
      (if_neg hname).trans hrun
    obtain ⟨t', hatomic, hrows, hok⟩ := exists_atomic hcreate
    refine ⟨outcome, t', hatomic, hrows, fun a ha => ?_⟩
    rw [hok a ha]
    rcases hwritten with ⟨⟨e, he⟩, -⟩ | ⟨b, row, w, hassign, hcolumns, hwrite⟩
    · rw [ha] at he
      cases he
    · have hkey := SameKey.updateAuthorityInstance hassign
      have hrow := SameKey.columnsOf hcolumns
      have hadded := writeRow_of_new hkey.id hwrite
      refine ⟨_, hadded, hrow.uuid.trans hkey.uuid, ?_⟩
      rw [← storedAgrees_iff hassign hcolumns]
      exact ⟨fun h => h.with_id row.id, fun h => h.with_id _⟩

/-- An update of a row raises, or puts the row it writes in its place. -/
lemma run_update_row (env : RequestEnvironment) (request : AuthorityRequest)
    (ha : a ∈ s.rows) (hid : a.id ≠ none) (honly : ∀ r ∈ s.rows, r.uuid = a.uuid → r = a) :
    ∃ outcome t, updateAuthorityInstance env request a s = some (outcome, t) ∧
      ∀ c, outcome = .ok c → ∃ row ∈ t.rows, row.uuid = a.uuid ∧
        (∀ r ∈ t.rows, r.uuid = a.uuid → r = row) ∧
        (StoredAgrees env.columns request row ↔ Fits env.columns request) := by
  obtain ⟨outcome, t, hrun, hwritten⟩ := run_update env request a s
  refine ⟨outcome, t, hrun, fun c hc => ?_⟩
  rcases hwritten with ⟨⟨e, he⟩, -⟩ | ⟨b, row, w, hassign, hcolumns, hwrite⟩
  · rw [hc] at he
    cases he
  have hkey := SameKey.updateAuthorityInstance hassign
  have huuid : row.uuid = a.uuid := (SameKey.columnsOf hcolumns).uuid.trans hkey.uuid
  have hid' : b.id ≠ none := by rwa [hkey.id]
  have hrows := writeRow_of_row (s := { s with wire := w }) hid' ⟨a, ha, hkey.id.symm⟩ hwrite
  refine ⟨row, ?_, huuid, fun r hr hr' => ?_, storedAgrees_iff hassign hcolumns⟩
  · rw [hrows]
    exact List.mem_map.mpr ⟨a, ha, if_pos hkey.id.symm⟩
  · rw [hrows] at hr
    obtain ⟨r₀, hr₀, rfl⟩ := List.mem_map.mp hr
    split_ifs at hr' ⊢ with hid₀
    · rfl
    · -- a row with the uuid is the one that was updated
      rw [honly r₀ hr₀ hr'] at hid₀
      exact absurd hkey.id.symm hid₀

/-- An update of a uuid raises, finds no row, or puts a row in its place. -/
lemma run_updateInstance (env : RequestEnvironment) (request : AuthorityRequest) (uuid : UUID)
    (hid : ∀ r ∈ s.rows, r.id ≠ none) :
    ∃ outcome t, updateInstance env uuid request s = some (outcome, t) ∧
      ∀ a, outcome = .ok (some a) → ∃ row ∈ t.rows, row.uuid = uuid ∧
        (∀ r ∈ t.rows, r.uuid = uuid → r = row) ∧
        (StoredAgrees env.columns request row ↔ Fits env.columns request) := by
  rw [updateInstance]
  rcases hrows : s.rows.filter fun r => r.uuid = uuid with _ | ⟨a, _ | ⟨b, rest⟩⟩
  · have hget : Returns (getInstance uuid) s none s := by
      rw [Returns, getInstance, hrows]
    rw [hget.run_bind]
    exact ⟨_, _, rfl, fun a ha => by cases ha⟩
  · have hget : Returns (getInstance uuid) s (some a) s := by
      rw [Returns, getInstance, hrows]
    have hmem : ∀ r, r ∈ s.rows ∧ r.uuid = uuid ↔ r = a := fun r => by
      have hfilter : r ∈ s.rows.filter (fun r => r.uuid = uuid) ↔ r ∈ [a] := by rw [hrows]
      rwa [List.mem_filter, decide_eq_true_eq, List.mem_singleton] at hfilter
    obtain ⟨ha, rfl⟩ := (hmem a).mpr rfl
    obtain ⟨outcome, t, hrun, hstored⟩ := run_update_row env request ha (hid a ha)
      fun r hr huuid => (hmem r).mp ⟨hr, huuid⟩
    have hupdate : (some <$> updateAuthorityInstance env request a) s =
        some (outcome.map some, t) := by
      rw [run_map, hrun]
      rfl
    refine ⟨outcome.map some, t, ?_, fun c hc => ?_⟩
    · rw [hget.run_bind]
      exact hupdate
    · cases outcome with
      | error e => cases hc
      | ok c => exact hstored c rfl
  · have hget : getInstance uuid s = some (.error (.inr (.exception
        ("get() returned more than one AuthorityInstance -- " ++ "it returned " ++
          toString (a :: b :: rest).length ++ "!"))), s) := by
      rw [getInstance, hrows]
    exact ⟨_, _, run_bind_eq_some.mpr (.inl ⟨_, hget, rfl⟩), fun a ha => by cases ha⟩

/-- **The stored authority instance** agrees with its request and with itself
exactly when the values requested fit. A request that raises leaves the rows as they
were. -/
theorem stored_agrees_iff (env : RequestEnvironment) (request : AuthorityRequest) (uuid : UUID)
    (hid : ∀ r ∈ s.rows, r.id ≠ none) :
    (∃ outcome t, authorityOperations env uuid request s = some (outcome, t) ∧
      (∀ e, outcome = .error e → t.rows = s.rows) ∧
      ∀ a, outcome = .ok a → ∃ row, t.rows = s.rows ++ [row] ∧ row.uuid = uuid ∧
        (StoredAgrees env.columns request row ↔ Fits env.columns request)) ∧
    ∃ outcome t, authorityInstanceOperations env uuid request s = some (outcome, t) ∧
      (∀ e, outcome = .error e → t.rows = s.rows) ∧
      ∀ a, outcome = .ok (some a) → ∃ row ∈ t.rows, row.uuid = uuid ∧
        (∀ r ∈ t.rows, r.uuid = uuid → r = row) ∧
        (StoredAgrees env.columns request row ↔ Fits env.columns request) := by
  refine ⟨run_create env request uuid s, ?_⟩
  obtain ⟨outcome, t, hrun, hstored⟩ := run_updateInstance env request uuid hid
  obtain ⟨t', hatomic, hrows, hok⟩ := exists_atomic hrun
  exact ⟨outcome, t', hatomic, hrows, fun a ha => hok _ ha ▸ hstored a ha⟩

/-! ### Samples -/

/-- A host that answers every script with nothing. -/
def sampleEnvironment : RequestEnvironment where
  AuthorityInstance := Unit
  authorityInstance _ := .ok ()
  session _ := .ok (printingHost fun _ => [])
  eval _ _ := .error .syntaxError
  searchPageSize := 1000
  credentials _ := ()
  columns := sampleColumns
  format _ := ""

/-- A table of one row. -/
def sampleServer : Server := ⟨[sampleInstance], 2, ⟨[], 0⟩⟩

/-- An update of the row. -/
lemma exists_sample {request : AuthorityRequest}
    (hassign : Authority.updateAuthorityInstance request sampleInstance = .ok sampleUpdated) :
    ∃ t, authorityInstanceOperations sampleEnvironment 7 request sampleServer =
      some (.ok (some sampleUpdated), t) ∧ t.rows = [sampleUpdated] := by
  obtain ⟨w, hverify⟩ : ∃ w, verifyConnection sampleEnvironment sampleUpdated sampleServer.wire =
      some (.ok (), w) := ⟨_, rfl⟩
  have hget : Returns (getInstance 7) sampleServer (some sampleInstance) sampleServer := rfl
  have hsave : save sampleColumns sampleUpdated { sampleServer with wire := w } =
      some (.ok sampleUpdated, ⟨[sampleUpdated], 2, w⟩) := by
    rw [save, columnsOf_sample]
    rfl
  have hupdate := (run_update_of_assign hassign hverify).trans hsave
  have hrun : updateInstance sampleEnvironment 7 request sampleServer =
      some (.ok (some sampleUpdated), ⟨[sampleUpdated], 2, w⟩) := by
    rw [updateInstance, hget.run_bind]
    exact (run_map some _ sampleServer).trans (by rw [hupdate]; rfl)
  refine ⟨⟨[sampleUpdated], 2, w⟩, ?_, rfl⟩
  rw [authorityInstanceOperations, atomic, hrun]

/-- A request whose address is requested once is stored as it is. -/
theorem stored_agrees_sample : ∃ t,
    authorityInstanceOperations sampleEnvironment 7 sampleRequest sampleServer =
      some (.ok (some sampleUpdated), t) ∧
    ∃ row ∈ t.rows, row.uuid = 7 ∧ StoredAgrees sampleColumns sampleRequest row := by
  obtain ⟨t, hrun, -⟩ := exists_sample updateAuthorityInstance_sample
  obtain ⟨-, outcome, t', hrun', -, hstored⟩ := stored_agrees_iff (s := sampleServer)
    sampleEnvironment sampleRequest 7 (List.forall_mem_singleton.mpr (Option.some_ne_none 1))
  obtain ⟨rfl, rfl⟩ := Prod.mk.inj (Option.some.inj (hrun.symm.trans hrun'))
  obtain ⟨row, hrow, huuid, -, hagrees⟩ := hstored sampleUpdated rfl
  refine ⟨t, hrun, row, hrow, huuid, hagrees.mpr ⟨fun name hname => .inl ?_, ⟨_, rfl⟩,
    ⟨true, rfl⟩, ⟨5986, Int.toInt?_repr 5986⟩⟩⟩
  fin_cases hname <;> rfl

/-- The sample request with another address before its own. -/
def repeatedRequest : AuthorityRequest := { sampleRequest with
  attributes := ⟨"authority_server_address", some [.str "ca1.example.com"]⟩ ::
    sampleRequest.attributes }

/-- Of two addresses requested, the last one is stored; the request reads as the
first one. -/
theorem repeated_address_differs :
    ¬ ∀ (env : RequestEnvironment) (request : AuthorityRequest) (uuid : UUID) (s t : Server)
      (a : AuthorityInstance), (∀ r ∈ s.rows, r.id ≠ none) →
      authorityInstanceOperations env uuid request s = some (.ok (some a), t) →
      ∀ row ∈ t.rows, row.uuid = uuid → StoredAgrees env.columns request row := by
  intro h
  have hassign : Authority.updateAuthorityInstance repeatedRequest sampleInstance =
      .ok sampleUpdated := rfl
  obtain ⟨t, hrun, hrows⟩ := exists_sample hassign
  have hagrees := h sampleEnvironment repeatedRequest 7 sampleServer t _
    (List.forall_mem_singleton.mpr (Option.some_ne_none 1)) hrun sampleUpdated
    (hrows ▸ List.mem_cons_self) rfl
  have haddress := hagrees.attributes "authority_server_address" (by decide)
  exact absurd (Json.str.inj (sampleColumns.equal_str.mp haddress)) (by decide)

end Requests

end Authority

end AdcsConnector
