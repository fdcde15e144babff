import Fleximq.Foundation.Serde
import Fleximq.Protocol.Types

/-! # The MessagePack form of a header

What serde derive makes of the header types. `Routing` and `RequestResponse`
are arrays of their fields; `Auth` and `Header` have a flattened field and are
maps. A skipped `None` leaves an array shorter and a map without the key.
-/
namespace Fleximq.Protocol
open Foundation Foundation.Serde
open Foundation.MessagePack (Value)

/-! ## Serialize -/

def Routing.serialize (r : Routing) : Value :=
  .array ([.string r.clientName, .string r.path] ++
    (r.clientId.map fun id => Value.integer id.toNat).toList)

def RequestResponseType.serialize : RequestResponseType → Value
  | .request => .string "request"
  | .correlation => .string "correlation"

def RequestResponse.serialize (r : RequestResponse) : Value :=
  .array [r.reqType.serialize, .string r.id]

def StatusCode.serialize (s : StatusCode) : Value := .integer s.code.toNat

def AuthType.serialize : AuthType → Value
  | .token => .string "token"
  | .basic => .string "basic"
  | .apiKey => .string "api_key"

def AuthCredentials.fields : AuthCredentials → List (String × Value)
  | .token value => [("token", .string value)]
  | .basic username password => [("username", .string username), ("password", .string password)]
  | .apiKey value => [("api_key", .string value)]

def Auth.serialize (a : Auth) : Value :=
  .map (([("type", a.authType.serialize)] ++ a.credentials.fields).map entry)

def Header.named (h : Header) : List (String × Value) :=
  present "routing" (h.routing.map fun routing => .array (routing.map Routing.serialize)) ++
    (present "reqrep" (h.reqrep.map RequestResponse.serialize) ++
      (present "topic" (h.topic.map Value.string) ++
        (present "status" (h.status.map StatusCode.serialize) ++
          (present "auth" (h.auth.map Auth.serialize) ++
            (present "client_name" (h.clientName.map Value.string) ++ [])))))

def Header.extension (h : Header) : List (String × Value) :=
  h.additional.entries.map fun item => (item.1, item.2)

def Header.serialize (h : Header) : Value := .map ((h.named ++ h.extension).map entry)

/-! ## Deserialize -/

def ClientId.deserialize (v : Value) : Except Error ClientId := (unsigned (2 ^ 32) v).map UInt32.ofNat

def Routing.deserialize (v : Value) : Except Error Routing := do
  let fields ← struct ["client_name", "path", "client_id"] v
  let clientName ← require fields "client_name" string
  let path ← require fields "path" string
  let clientId ← optional fields "client_id" ClientId.deserialize
  return ⟨clientName, path, clientId⟩

def RequestResponseType.deserialize (v : Value) : Except Error RequestResponseType := do
  match ← variant ["request", "correlation"] v with
  | 0 => return .request
  | _ => return .correlation

def RequestResponse.deserialize (v : Value) : Except Error RequestResponse := do
  let fields ← struct ["type", "id"] v
  let reqType ← require fields "type" RequestResponseType.deserialize
  let id ← require fields "id" string
  return ⟨reqType, id⟩

def StatusCode.deserialize (v : Value) : Except Error StatusCode :=
  (unsigned (2 ^ 16) v).map fun n => ⟨UInt16.ofNat n⟩

def AuthType.deserialize (v : Value) : Except Error AuthType := do
  match ← variant ["token", "basic", "api_key"] v with
  | 0 => return .token
  | 1 => return .basic
  | _ => return .apiKey

/-- `#[serde(untagged)]`: the first variant that the entries, now buffered, can fill. -/
def AuthCredentials.deserialize (entries : List (Value × Value)) : Except Error AuthCredentials :=
  let token : Except Error AuthCredentials := do
    let fields ← visitMap (identifyBuffered ["token"]) entries
    return .token (← require fields "token" string)
  let basic : Except Error AuthCredentials := do
    let fields ← visitMap (identifyBuffered ["username", "password"]) entries
    return .basic (← require fields "username" string) (← require fields "password" string)
  let apiKey : Except Error AuthCredentials := do
    let fields ← visitMap (identifyBuffered ["api_key"]) entries
    return .apiKey (← require fields "api_key" string)
  match token, basic, apiKey with
  | .ok credentials, _, _ => .ok credentials
  | _, .ok credentials, _ => .ok credentials
  | _, _, .ok credentials => .ok credentials
  | _, _, _ => .error .unknownVariant

def Auth.deserialize (v : Value) : Except Error Auth := do
  let (fields, others) ← flattened ["type"] v
  let authType ← require fields "type" AuthType.deserialize
  let credentials ← AuthCredentials.deserialize others
  return ⟨authType, credentials⟩

/-- The flattened `HashMap`: later entries replace earlier ones with the same key. -/
def collect : List (Value × Value) → Additional → Except Error Additional
  | [], map => .ok map
  | (key, v) :: entries, map => do
    let key ← string key
    collect entries (map.insert key v)

def headerFields : List String := ["routing", "reqrep", "topic", "status", "auth", "client_name"]

def Header.deserialize (v : Value) : Except Error Header := do
  let (fields, others) ← flattened headerFields v
  let routing ← optional fields "routing" (sequence Routing.deserialize)
  let reqrep ← optional fields "reqrep" RequestResponse.deserialize
  let topic ← optional fields "topic" string
  let status ← optional fields "status" StatusCode.deserialize
  let auth ← optional fields "auth" Auth.deserialize
  let clientName ← optional fields "client_name" string
  let additional ← collect others ∅
  return ⟨routing, reqrep, topic, status, auth, clientName, additional⟩

/-! ## Reading back a header -/

theorem ClientId.deserialize_integer (id : ClientId) :
    ClientId.deserialize (.integer id.toNat) = .ok id := by
  rw [ClientId.deserialize, unsigned_integer id.toNat_lt, Except.map, UInt32.ofNat_toNat]

theorem Routing.deserialize_serialize {r : Routing} (h : r.clientId.isSome = true) :
    Routing.deserialize r.serialize = .ok r := by
  obtain ⟨clientName, path, clientId⟩ := r
  obtain ⟨id, rfl⟩ := Option.isSome_iff_exists.mp h
  have hStruct : struct ["client_name", "path", "client_id"]
      (Routing.serialize ⟨clientName, path, some id⟩) =
      .ok [("client_name", .string clientName), ("path", .string path),
        ("client_id", .integer id.toNat)] := rfl
  have hClientId : option ClientId.deserialize (.integer id.toNat) = .ok (some id) :=
    option_some (by simp) (ClientId.deserialize_integer id)
  refine bind_eq_ok.mpr ⟨_, hStruct, ?_⟩
  refine bind_eq_ok.mpr ⟨clientName, rfl, ?_⟩
  refine bind_eq_ok.mpr ⟨path, rfl, ?_⟩
  exact bind_eq_ok.mpr ⟨some id, hClientId, rfl⟩

theorem Routing.deserialize_serialize_none {r : Routing} (h : r.clientId = none) :
    Routing.deserialize r.serialize = .error (.invalidLength 2) := by
  obtain ⟨clientName, path, clientId⟩ := r
  cases h
  rfl

theorem RequestResponse.deserialize_serialize (r : RequestResponse) :
    RequestResponse.deserialize r.serialize = .ok r := by
  obtain ⟨reqType, id⟩ := r
  cases reqType <;> rfl

theorem StatusCode.deserialize_serialize (s : StatusCode) :
    StatusCode.deserialize s.serialize = .ok s := by
  rw [StatusCode.deserialize, StatusCode.serialize, unsigned_integer s.code.toNat_lt, Except.map,
    UInt16.ofNat_toNat]

theorem Auth.deserialize_serialize (a : Auth) : Auth.deserialize a.serialize = .ok a := by
  obtain ⟨authType, credentials⟩ := a
  cases authType <;> cases credentials <;> rfl

/-- What is taken for a field written as `x` beside an entry of its name with the value `v`. -/
def received {α : Type} (read : Value → Except Error α) (x : Option α) (v : Option Value) :
    Except Error (Option α) :=
  match x, v with
  | some a, _ => .ok (some a)
  | none, some v => option read v
  | none, none => .ok none

theorem optional_received {α : Type} {fields : List (String × Value)} {name : String}
    {read : Value → Except Error α} (write : α → Value) {x : Option α} {v : Option Value}
    (hLookup : fields.lookup name = (x.map write).or v) (hNil : ∀ a, write a ≠ .nil)
    (hRead : ∀ a, x = some a → read (write a) = .ok a) :
    optional fields name read = received read x v := by
  rw [Serde.optional, hLookup]
  cases x with
  | none => cases v <;> rfl
  | some a => exact option_some (hNil a) (hRead a rfl)

theorem present_append_keys_sublist (name : String) (v : Option Value)
    {fields : List (String × Value)} {names : List String}
    (h : (fields.map Prod.fst).Sublist names) :
    ((present name v ++ fields).map Prod.fst).Sublist (name :: names) := by
  rw [List.map_append]
  exact (present_keys_sublist name v).append h

theorem Header.named_keys_sublist (h : Header) : (h.named.map Prod.fst).Sublist headerFields := by
  unfold named headerFields
  iterate 6 apply present_append_keys_sublist
  exact List.Sublist.refl []

theorem Header.named_nodup (h : Header) : (h.named.map Prod.fst).Nodup :=
  h.named_keys_sublist.nodup (by decide)

theorem collect_eq_ok {entries : List (String × Value)} {map : Additional}
    (hNodup : (entries.map Prod.fst).Nodup) (hFresh : ∀ item ∈ entries, item.1 ∉ map) :
    ∃ map', collect (entries.map entry) map = .ok map' ∧
      map'.entries.Perm (entries.map (fun item => ⟨item.1, item.2⟩) ++ map.entries) := by
  induction entries generalizing map with
  | nil => exact ⟨map, rfl, .refl _⟩
  | cons item entries ih =>
    rw [List.map_cons, List.nodup_cons] at hNodup
    have hInsert : (map.insert item.1 item.2).entries = ⟨item.1, item.2⟩ :: map.entries :=
      AList.entries_insert_of_notMem (hFresh item List.mem_cons_self)
    have hFreshTail : ∀ other ∈ entries, other.1 ∉ map.insert item.1 item.2 := by
      intro other hOther hMem
      rcases (AList.mem_insert map).mp hMem with hKey | hMem
      · exact hNodup.1 (List.mem_map.mpr ⟨other, hOther, hKey⟩)
      · exact hFresh other (List.mem_cons_of_mem item hOther) hMem
    obtain ⟨map', hCollect, hPerm⟩ := ih hNodup.2 hFreshTail
    refine ⟨map', hCollect, hPerm.trans ?_⟩
    rw [hInsert, List.map_cons]
    exact List.perm_middle

theorem mem_collect {entries : List (Value × Value)} {map map' : Additional}
    (h : collect entries map = .ok map') {item : (_ : String) × Value} (hItem : item ∈ map'.entries) :
    item ∈ map.entries ∨ ∃ entry ∈ entries, text entry.1 = some item.1 ∧ entry.2 = item.2 := by
  induction entries generalizing map with
  | nil =>
    cases h
    exact .inl hItem
  | cons first entries ih =>
    obtain ⟨key, v⟩ := first
    obtain ⟨name, hName, hRest⟩ := bind_eq_ok.mp h
    rcases ih hRest with hMem | ⟨entry, hMem, hText, hValue⟩
    · rw [AList.entries_insert, List.mem_cons] at hMem
      rcases hMem with rfl | hOld
      · exact .inr ⟨_, List.mem_cons_self, string_eq_ok.mp hName, rfl⟩
      · exact .inl ((List.kerase_sublist name map.entries).subset hOld)
    · exact .inr ⟨entry, List.mem_cons_of_mem _ hMem, hText, hValue⟩

/-- What is read into `additional` are entries of the map that are not named like a field. -/
theorem Header.additional_of_deserialize {v : Value} {h : Header} (hRead : Header.deserialize v = .ok h) :
    ∃ entries, v = .map entries ∧ ∀ item ∈ h.additional.entries, item.1 ∉ headerFields ∧
      ∃ entry ∈ entries, entry.2 = item.2 := by
  obtain ⟨⟨fields, others⟩, hFlat, hRead⟩ := bind_eq_ok.mp hRead
  obtain ⟨_, _, hRead⟩ := bind_eq_ok.mp hRead
  obtain ⟨_, _, hRead⟩ := bind_eq_ok.mp hRead
  obtain ⟨_, _, hRead⟩ := bind_eq_ok.mp hRead
  obtain ⟨_, _, hRead⟩ := bind_eq_ok.mp hRead
  obtain ⟨_, _, hRead⟩ := bind_eq_ok.mp hRead
  obtain ⟨_, _, hRead⟩ := bind_eq_ok.mp hRead
  obtain ⟨additional, hCollect, hResult⟩ := bind_eq_ok.mp hRead
  cases hResult
  cases v with
  | map entries =>
    refine ⟨entries, rfl, ?_⟩
    intro item hItem
    rcases mem_collect hCollect hItem with hEmpty | ⟨entry, hMem, hText, hValue⟩
    · exact absurd hEmpty List.not_mem_nil
    · obtain ⟨hEntry, hOther⟩ := visitFlat_others hFlat entry hMem
      exact ⟨fun hField => hOther item.1 hField hText, entry, hEntry, hValue⟩
  | _ => cases hFlat

theorem Header.keys_of_deserialize {v : Value} {h : Header} (hRead : Header.deserialize v = .ok h) :
    ∀ key ∈ h.additional, key ∉ headerFields := by
  obtain ⟨entries, rfl, hItems⟩ := additional_of_deserialize hRead
  intro key hKey
  obtain ⟨item, hItem, rfl⟩ := List.mem_map.mp (AList.mem_keys.mp hKey)
  exact (hItems item hItem).1

/-! ## How deep a header nests -/

theorem Routing.nesting_serialize (r : Routing) : r.serialize.nesting = 1 := by
  obtain ⟨clientName, path, clientId⟩ := r
  cases clientId <;> rfl

theorem Auth.nesting_serialize (a : Auth) : a.serialize.nesting = 1 := by
  obtain ⟨authType, credentials⟩ := a
  cases authType <;> cases credentials <;> rfl

theorem RequestResponse.nesting_serialize (r : RequestResponse) : r.serialize.nesting = 1 := by
  obtain ⟨reqType, id⟩ := r
  cases reqType <;> rfl

/-- Routing lists are lists of arrays; the other named fields nest less. -/
theorem Header.nesting_named {h : Header} {field : String × Value} (hField : field ∈ h.named) :
    field.2.nesting < 3 := by
  simp only [named, List.mem_append, mem_present, List.not_mem_nil, or_false, Option.map_eq_some_iff] at hField
  rcases hField with ⟨⟨routing, _, hValue⟩, _⟩ | ⟨⟨reqrep, _, hValue⟩, _⟩ | ⟨⟨topic, _, hValue⟩, _⟩ |
    ⟨⟨status, _, hValue⟩, _⟩ | ⟨⟨auth, _, hValue⟩, _⟩ | ⟨⟨clientName, _, hValue⟩, _⟩
  · rw [← hValue, Value.nesting, Nat.succ_lt_succ_iff, MessagePack.nestingItems_lt_iff (by decide)]
    intro item hItem
    obtain ⟨r, _, rfl⟩ := List.mem_map.mp hItem
    rw [r.nesting_serialize]
    decide
  · rw [← hValue, reqrep.nesting_serialize]
    decide
  · rw [← hValue]
    exact Nat.zero_lt_succ 2
  · rw [← hValue]
    exact Nat.zero_lt_succ 2
  · rw [← hValue, auth.nesting_serialize]
    decide
  · rw [← hValue]
    exact Nat.zero_lt_succ 2

theorem Header.nesting_serialize_lt_iff {h : Header} {depth : Nat} (hDepth : 3 < depth) :
    h.serialize.nesting < depth ↔ ∀ item ∈ h.additional.entries, item.2.nesting + 1 < depth := by
  obtain ⟨depth, rfl⟩ := Nat.exists_eq_add_one_of_ne_zero (Nat.ne_zero_of_lt hDepth)
  have hPositive : 0 < depth := by omega
  rw [serialize, Value.nesting, Nat.add_lt_add_iff_right, MessagePack.nestingEntries_lt_iff hPositive]
  constructor
  · intro hEntries item hItem
    have hField : (item.1, item.2) ∈ h.extension := List.mem_map_of_mem hItem
    exact Nat.succ_lt_succ (hEntries _ (List.mem_map_of_mem (List.mem_append_right _ hField))).2
  · intro hItems entry hEntry
    obtain ⟨field, hField, rfl⟩ := List.mem_map.mp hEntry
    refine ⟨hPositive, ?_⟩
    rcases List.mem_append.mp hField with hNamed | hExtension
    · exact Nat.lt_of_lt_of_le (nesting_named hNamed) (by omega)
    · obtain ⟨item, hItem, rfl⟩ := List.mem_map.mp hExtension
      exact Nat.lt_of_succ_lt_succ (hItems item hItem)

/-- A header that was read nests no deeper when it is written again. -/
theorem Header.nesting_of_deserialize {v : Value} {h : Header} {depth : Nat} (hDepth : v.nesting < depth)
    (hRead : Header.deserialize v = .ok h) : ∀ item ∈ h.additional.entries, item.2.nesting + 1 < depth := by
  obtain ⟨entries, rfl, hItems⟩ := additional_of_deserialize hRead
  intro item hItem
  obtain ⟨_, entry, hEntry, hValue⟩ := hItems item hItem
  obtain ⟨depth, rfl⟩ := Nat.exists_eq_add_one_of_ne_zero (Nat.ne_zero_of_lt hDepth)
  rw [Value.nesting, Nat.add_lt_add_iff_right] at hDepth
  have hNesting := (MessagePack.nestingEntries_lt_iff (Nat.zero_lt_of_lt hDepth)).mp hDepth entry hEntry
  rw [← hValue]
  exact Nat.succ_lt_succ hNesting.2

theorem Header.extension_keys (h : Header) : h.extension.map Prod.fst = h.additional.keys := by
  rw [extension, List.map_map]
  rfl

/-- No field that is present has its name among the keys of `additional`. -/
def Header.Distinct (h : Header) : Prop :=
  ∀ field : HeaderField, field.isPresentIn h = true → field.name ∉ h.additional

theorem HeaderField.name_mem (field : HeaderField) : field.name ∈ headerFields := by
  cases field <;> simp [name, headerFields]

theorem Header.mem_named_keys {h : Header} {key : String} :
    key ∈ h.named.map Prod.fst ↔ ∃ field : HeaderField, field.isPresentIn h = true ∧ key = field.name := by
  simp only [named, List.map_append, List.mem_append, mem_present_keys, Option.isSome_map, List.map_nil,
    List.not_mem_nil, or_false]
  constructor
  · rintro (hKey | hKey | hKey | hKey | hKey | hKey)
    · exact ⟨.routing, hKey⟩
    · exact ⟨.reqrep, hKey⟩
    · exact ⟨.topic, hKey⟩
    · exact ⟨.status, hKey⟩
    · exact ⟨.auth, hKey⟩
    · exact ⟨.clientName, hKey⟩
  · rintro ⟨field, hPresent, rfl⟩
    cases field <;> simp_all [HeaderField.isPresentIn, HeaderField.name]

theorem Header.lookup_extension (h : Header) (key : String) :
    h.extension.lookup key = h.additional.lookup key := by
  rw [extension, AList.lookup]
  generalize h.additional.entries = entries
  induction entries with
  | nil => rfl
  | cons item entries ih =>
    obtain ⟨other, v⟩ := item
    rw [List.map_cons, List.lookup_cons]
    by_cases hKey : key = other
    · subst hKey
      rw [List.dlookup_cons_eq, beq_self_eq_true]
    · rw [beq_eq_false_iff_ne.mpr hKey, List.dlookup_cons_ne _ _ hKey, ih]

theorem Header.extension_nodup (h : Header) : (h.extension.map Prod.fst).Nodup := by
  rw [h.extension_keys]
  exact h.additional.keys_nodup

theorem Header.filter_named (h : Header) : h.named.filter (fun field => field.1 ∈ headerFields) = h.named := by
  rw [List.filter_eq_self]
  intro field hField
  exact decide_eq_true (h.named_keys_sublist.subset (List.mem_map_of_mem hField))

theorem Header.mem_extension_keys {h : Header} {key : String} :
    key ∈ h.extension.map Prod.fst ↔ key ∈ h.additional := by
  rw [h.extension_keys, AList.mem_keys]

theorem Header.nodup_iff {h : Header} :
    (((h.named ++ h.extension).filter fun field => field.1 ∈ headerFields).map Prod.fst).Nodup ↔
      h.Distinct := by
  rw [List.filter_append, h.filter_named, List.map_append, List.nodup_append]
  constructor
  · rintro ⟨_, _, hDisjoint⟩ field hPresent hMem
    obtain ⟨item, hItem, hKey⟩ := List.mem_map.mp (mem_extension_keys.mpr hMem)
    refine hDisjoint field.name (mem_named_keys.mpr ⟨field, hPresent, rfl⟩) item.1 ?_ hKey.symm
    apply List.mem_map_of_mem
    exact List.mem_filter.mpr ⟨hItem, decide_eq_true (hKey ▸ field.name_mem)⟩
  · intro hDistinct
    refine ⟨h.named_nodup, (List.filter_sublist.map Prod.fst).nodup h.extension_nodup, ?_⟩
    rintro key hNamed other hOther rfl
    obtain ⟨field, hPresent, rfl⟩ := mem_named_keys.mp hNamed
    obtain ⟨item, hItem, hKey⟩ := List.mem_map.mp hOther
    apply hDistinct field hPresent
    rw [← hKey, ← mem_extension_keys]
    exact List.mem_map_of_mem (List.mem_of_mem_filter hItem)

/-- The entries that a reader takes for the named fields. -/
def Header.taken (h : Header) : List (String × Value) :=
  (h.named ++ h.extension).filter fun field => field.1 ∈ headerFields

/-- The entries of `additional` that are not named like a field. -/
def Header.others (h : Header) : List (String × Value) :=
  h.extension.filter fun field => field.1 ∉ headerFields

theorem Header.flattened_serialize {h : Header} (hDistinct : h.Distinct) :
    flattened headerFields h.serialize = .ok (h.taken, h.others.map entry) := by
  have hOthers : (h.named ++ h.extension).filter (fun field => field.1 ∉ headerFields) = h.others := by
    rw [List.filter_append, List.filter_eq_nil_iff.mpr, List.nil_append]
    · rfl
    · intro field hField
      simpa using h.named_keys_sublist.subset (List.mem_map_of_mem hField)
  rw [serialize, flattened, visitFlat_eq_ok (nodup_iff.mpr hDistinct), hOthers]
  rfl

theorem Header.flattened_serialize_error {h : Header} (hCollision : ¬ h.Distinct) :
    ∃ e, flattened headerFields h.serialize = .error e :=
  visitFlat_duplicate (mt nodup_iff.mp hCollision)

theorem Header.collect_others (h : Header) :
    ∃ additional, collect (h.others.map entry) ∅ = .ok additional ∧
      additional.entries.Perm (h.others.map fun item => ⟨item.1, item.2⟩) := by
  have hNodup : (h.others.map Prod.fst).Nodup :=
    (List.filter_sublist.map Prod.fst).nodup h.extension_nodup
  obtain ⟨additional, hCollect, hPerm⟩ := collect_eq_ok hNodup fun item _ => AList.notMem_empty item.1
  refine ⟨additional, hCollect, ?_⟩
  rw [show (∅ : Additional).entries = [] from rfl, List.append_nil] at hPerm
  exact hPerm

theorem Header.optional_taken (h : Header) {α : Type} {name : String} {read : Value → Except Error α}
    {x : Option α} (write : α → Value) (hName : name ∈ headerFields)
    (hLookup : h.named.lookup name = x.map write) (hNil : ∀ a, write a ≠ .nil)
    (hRead : ∀ a, x = some a → read (write a) = .ok a) :
    optional h.taken name read = received read x (h.additional.lookup name) := by
  refine optional_received write ?_ hNil hRead
  rw [taken, lookup_filter hName, List.lookup_append, hLookup, h.lookup_extension]

/-- Every routing entry names the client it goes to. -/
def Header.routingComplete (h : Header) : Bool :=
  h.routing.all fun routing => routing.all fun r => r.clientId.isSome

/-- What the reader makes of the header when no key occurs twice and the routing entries can be read. -/
theorem Header.deserialize_serialize_eq {h : Header} (hDistinct : h.Distinct)
    (hRouting : h.routingComplete = true) :
    ∃ additional : Additional, additional.entries.Perm (h.others.map fun item => ⟨item.1, item.2⟩) ∧
      Header.deserialize h.serialize = (do
        let routing ← received (sequence Routing.deserialize) h.routing (h.additional.lookup "routing")
        let reqrep ← received RequestResponse.deserialize h.reqrep (h.additional.lookup "reqrep")
        let topic ← received string h.topic (h.additional.lookup "topic")
        let status ← received StatusCode.deserialize h.status (h.additional.lookup "status")
        let auth ← received Auth.deserialize h.auth (h.additional.lookup "auth")
        let clientName ← received string h.clientName (h.additional.lookup "client_name")
        return ⟨routing, reqrep, topic, status, auth, clientName, additional⟩) := by
  obtain ⟨additional, hCollect, hPerm⟩ := h.collect_others
  have hReadRouting : optional h.taken "routing" (sequence Routing.deserialize) =
      received (sequence Routing.deserialize) h.routing (h.additional.lookup "routing") := by
    refine h.optional_taken (fun routing => Value.array (routing.map Routing.serialize))
      (by simp [headerFields]) (by simp [named]) (fun routing => by simp) ?_
    intro routing hSome
    refine mapM_eq_ok fun r hr => Routing.deserialize_serialize ?_
    rw [routingComplete, hSome] at hRouting
    exact List.all_eq_true.mp hRouting r hr
  have hReadReqrep : optional h.taken "reqrep" RequestResponse.deserialize =
      received RequestResponse.deserialize h.reqrep (h.additional.lookup "reqrep") :=
    h.optional_taken RequestResponse.serialize (by simp [headerFields]) (by simp [named])
      (fun r => by simp [RequestResponse.serialize]) fun r _ => r.deserialize_serialize
  have hReadTopic : optional h.taken "topic" string =
      received string h.topic (h.additional.lookup "topic") :=
    h.optional_taken Value.string (by simp [headerFields]) (by simp [named]) (fun t => by simp)
      fun t _ => string_string t
  have hReadStatus : optional h.taken "status" StatusCode.deserialize =
      received StatusCode.deserialize h.status (h.additional.lookup "status") :=
    h.optional_taken StatusCode.serialize (by simp [headerFields]) (by simp [named])
      (fun c => by simp [StatusCode.serialize]) fun c _ => c.deserialize_serialize
  have hReadAuth : optional h.taken "auth" Auth.deserialize =
      received Auth.deserialize h.auth (h.additional.lookup "auth") :=
    h.optional_taken Auth.serialize (by simp [headerFields]) (by simp [named])
      (fun a => by simp [Auth.serialize]) fun a _ => a.deserialize_serialize
  have hReadName : optional h.taken "client_name" string =
      received string h.clientName (h.additional.lookup "client_name") :=
    h.optional_taken Value.string (by simp [headerFields]) (by simp [named]) (fun n => by simp)
      fun n _ => string_string n
  refine ⟨additional, hPerm, ?_⟩
  rw [Header.deserialize, flattened_serialize hDistinct]
  simp only [bind, Except.bind, hReadRouting, hReadReqrep, hReadTopic, hReadStatus, hReadAuth, hReadName,
    hCollect]

theorem Header.deserialize_serialize {h : Header} (hKeys : ∀ key ∈ h.additional, key ∉ headerFields)
    (hRouting : h.routingComplete = true) :
    ∃ h', Header.deserialize h.serialize = .ok h' ∧ h'.Same h := by
  have hDistinct : h.Distinct := fun field _ hMem => hKeys field.name hMem field.name_mem
  have hAbsent {α : Type} {read : Value → Except Error α} {x : Option α} (field : HeaderField) :
      received read x (h.additional.lookup field.name) = .ok x := by
    rw [AList.lookup_eq_none.mpr fun hMem => hKeys field.name hMem field.name_mem]
    cases x <;> rfl
  obtain ⟨additional, hPerm, hRead⟩ := deserialize_serialize_eq hDistinct hRouting
  refine ⟨⟨h.routing, h.reqrep, h.topic, h.status, h.auth, h.clientName, additional⟩, ?_,
    ⟨rfl, rfl, rfl, rfl, rfl, rfl, ?_⟩⟩
  · rw [hRead]
    refine bind_eq_ok.mpr ⟨_, hAbsent .routing, bind_eq_ok.mpr ⟨_, hAbsent .reqrep, ?_⟩⟩
    refine bind_eq_ok.mpr ⟨_, hAbsent .topic, bind_eq_ok.mpr ⟨_, hAbsent .status, ?_⟩⟩
    exact bind_eq_ok.mpr ⟨_, hAbsent .auth, bind_eq_ok.mpr ⟨_, hAbsent .clientName, rfl⟩⟩
  · have hOthers : h.others = h.extension := by
      rw [others, List.filter_eq_self]
      intro item hItem
      exact decide_eq_true (hKeys item.1 (mem_extension_keys.mp (List.mem_map_of_mem hItem)))
    refine hPerm.trans (.of_eq ?_)
    rw [hOthers, extension, List.map_map]
    exact List.map_id _

theorem Header.distinct_of_deserialize {h h' : Header} (hRead : Header.deserialize h.serialize = .ok h') :
    h.Distinct := by
  by_contra hCollision
  obtain ⟨e, hError⟩ := flattened_serialize_error hCollision
  rw [Header.deserialize, hError] at hRead
  cases hRead

theorem Header.deserialize_serialize_error {h : Header} (hRouting : h.routingComplete = false) (h' : Header) :
    Header.deserialize h.serialize ≠ .ok h' := by
  intro hRead
  have hDistinct := distinct_of_deserialize hRead
  obtain ⟨⟨fields, others⟩, hFlat, hRead⟩ := bind_eq_ok.mp hRead
  rw [flattened_serialize hDistinct] at hFlat
  cases hFlat
  obtain ⟨routing, hReadRouting, _⟩ := bind_eq_ok.mp hRead
  cases hSome : h.routing with
  | none => simp [routingComplete, hSome] at hRouting
  | some entries =>
    rw [routingComplete, hSome] at hRouting
    obtain ⟨r, hMem, hNone⟩ := List.all_eq_false.mp hRouting
    obtain ⟨e, hError⟩ := mapM_error (List.mem_map_of_mem hMem)
      (Routing.deserialize_serialize_none (by simpa using hNone))
    have hLookup : h.taken.lookup "routing" = some (.array (entries.map Routing.serialize)) := by
      rw [taken, lookup_filter (by simp [headerFields]), List.lookup_append]
      simp [named, hSome]
    rw [Serde.optional, hLookup] at hReadRouting
    simp only [option, Serde.sequence, hError, Except.map] at hReadRouting
    cases hReadRouting

end Fleximq.Protocol
