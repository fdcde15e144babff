import Mathlib.Data.List.Basic
import Fleximq.Foundation.MessagePack
import Fleximq.Foundation.Result

/-! # The serde derive rules on MessagePack values

How derived `Deserialize` implementations read structs, flattened structs,
options, sequences and unit variants from a value that rmp_serde has parsed.
A struct is read from an array of all its fields in declaration order or from a
map keyed by field names; a flattened struct is read from a map only.
-/
namespace Foundation.Serde
open MessagePack (Value)

inductive Error where
  | invalidType
  | invalidValue
  | invalidLength (length : Nat)
  | lengthMismatch (length : Nat)
  | missingField (name : String)
  | duplicateField (name : String)
  | unknownVariant
  deriving DecidableEq, Repr

/-- Text arrives as a string or as a byte string that holds UTF-8. -/
def text : Value → Option String
  | .string s => some s
  | .binary bytes => String.fromUTF8? ⟨bytes.toArray⟩
  | _ => none

def string (v : Value) : Except Error String :=
  match text v with
  | some s => .ok s
  | none => .error .invalidType

def unsigned (bound : Nat) : Value → Except Error Nat
  | .integer n => if 0 ≤ n ∧ n < bound then .ok n.toNat else .error .invalidValue
  | _ => .error .invalidType

def option {α : Type} (read : Value → Except Error α) : Value → Except Error (Option α)
  | .nil => .ok none
  | v => (read v).map some

def mapM {α β : Type} (read : α → Except Error β) : List α → Except Error (List β)
  | [] => .ok []
  | x :: xs => do
    let y ← read x
    let ys ← mapM read xs
    return y :: ys

def sequence {α : Type} (read : Value → Except Error α) : Value → Except Error (List α)
  | .array items => mapM read items
  | _ => .error .invalidType

/-- A derived variant identifier: the name as text, or the index. -/
def variantIndex (names : List String) : Value → Except Error Nat
  | .integer n =>
    if n < 0 then .error .invalidType
    else if n < names.length then .ok n.toNat
    else .error .invalidValue
  | .string s => if s ∈ names then .ok (names.idxOf s) else .error .unknownVariant
  | .binary bytes =>
    match text (.binary bytes) with
    | some s => if s ∈ names then .ok (names.idxOf s) else .error .unknownVariant
    | none => .error .unknownVariant
  | _ => .error .invalidType

/-- A unit variant stands alone or as the only key of a map, with nil. -/
def variant (names : List String) : Value → Except Error Nat
  | .map [(key, v)] => do
    let index ← variantIndex names key
    match v with
    | .nil => return index
    | _ => .error .invalidType
  | .map entries => .error (.lengthMismatch entries.length)
  | v => variantIndex names v

/-! ## Structs -/

/-- A derived field identifier: what no field is named by is ignored. -/
def identify (names : List String) : Value → Except Error (Option String)
  | .integer n => if n < 0 then .error .invalidType else .ok names[n.toNat]?
  | .string s => .ok (if s ∈ names then some s else none)
  | .binary bytes => .ok ((text (.binary bytes)).filter (· ∈ names))
  | _ => .error .invalidType

/-- The same on content that serde has buffered, whose identifiers are text, `u8` or `u64`: numbers of
two or four bytes are not among them. -/
def identifyBuffered (names : List String) : Value → Except Error (Option String)
  | .integer n => if 2 ^ 8 ≤ n ∧ n < 2 ^ 32 then .error .invalidType else identify names (.integer n)
  | v => identify names v

def insertField (name : String) (v : Value) (fields : List (String × Value)) :
    Except Error (List (String × Value)) :=
  if (fields.lookup name).isSome then .error (.duplicateField name) else .ok ((name, v) :: fields)

def visitMap (identify : Value → Except Error (Option String)) :
    List (Value × Value) → Except Error (List (String × Value))
  | [] => .ok []
  | (key, v) :: entries => do
    let fields ← visitMap identify entries
    match ← identify key with
    | some name => insertField name v fields
    | none => return fields

def visitSeq (names : List String) (items : List Value) : Except Error (List (String × Value)) :=
  if items.length < names.length then .error (.invalidLength items.length)
  else if names.length < items.length then .error (.lengthMismatch names.length)
  else .ok (names.zip items)

def struct (names : List String) : Value → Except Error (List (String × Value))
  | .array items => visitSeq names items
  | .map entries => visitMap (identify names) entries
  | _ => .error .invalidType

def visitFlat (names : List String) :
    List (Value × Value) → Except Error (List (String × Value) × List (Value × Value))
  | [] => .ok ([], [])
  | (key, v) :: entries => do
    let (fields, others) ← visitFlat names entries
    match text key with
    | some name =>
      if name ∈ names then
        let fields ← insertField name v fields
        return (fields, others)
      else return (fields, (key, v) :: others)
    | none => return (fields, (key, v) :: others)

def flattened (names : List String) :
    Value → Except Error (List (String × Value) × List (Value × Value))
  | .map entries => visitFlat names entries
  | _ => .error .invalidType

def require {α : Type} (fields : List (String × Value)) (name : String)
    (read : Value → Except Error α) : Except Error α :=
  match fields.lookup name with
  | some v => read v
  | none => .error (.missingField name)

def optional {α : Type} (fields : List (String × Value)) (name : String)
    (read : Value → Except Error α) : Except Error (Option α) :=
  match fields.lookup name with
  | some v => option read v
  | none => .ok none

/-- `#[serde(skip_serializing_if = "Option::is_none")]` on a field of a map. -/
def present (name : String) (v : Option Value) : List (String × Value) := (v.map fun v => (name, v)).toList

def entry (field : String × Value) : Value × Value := (.string field.1, field.2)

/-! ## Reading back what was written -/

@[simp] theorem string_string (s : String) : string (.string s) = .ok s := rfl

theorem unsigned_integer {bound n : Nat} (h : n < bound) : unsigned bound (.integer n) = .ok n := by
  rw [unsigned, if_pos (by omega), Int.toNat_natCast]

theorem option_some {α : Type} {read : Value → Except Error α} {v : Value} {x : α} (hNil : v ≠ .nil)
    (hRead : read v = .ok x) : option read v = .ok (some x) := by
  cases v with
  | nil => exact absurd rfl hNil
  | _ => simp only [option, hRead, Except.map]

theorem option_eq_ok_none {α : Type} {read : Value → Except Error α} {v : Value} :
    option read v = .ok none ↔ v = .nil := by
  constructor
  · intro h
    cases v with
    | nil => rfl
    | _ =>
      obtain ⟨_, _, hNone⟩ := map_eq_ok.mp h
      cases hNone
  · rintro rfl
    rfl

theorem mapM_eq_ok {α β : Type} {read : α → Except Error β} {write : β → α} {xs : List β}
    (h : ∀ x ∈ xs, read (write x) = .ok x) : mapM read (xs.map write) = .ok xs := by
  induction xs with
  | nil => rfl
  | cons x xs ih =>
    rw [List.map_cons, mapM, h x List.mem_cons_self, ih fun y hy => h y (List.mem_cons_of_mem x hy)]
    rfl

theorem mapM_error {α β : Type} {read : α → Except Error β} {xs : List α} {x : α} {e : Error}
    (hMem : x ∈ xs) (hRead : read x = .error e) : ∃ e, mapM read xs = .error e := by
  induction xs with
  | nil => cases hMem
  | cons y ys ih =>
    rw [mapM]
    cases hHead : read y with
    | error e => exact ⟨e, rfl⟩
    | ok z =>
      rcases List.mem_cons.mp hMem with rfl | hMem
      · rw [hRead] at hHead
        cases hHead
      · obtain ⟨e, hTail⟩ := ih hMem
        exact ⟨e, by rw [hTail]; rfl⟩

theorem insertField_ok {name : String} {fields : List (String × Value)}
    (h : name ∉ fields.map Prod.fst) (v : Value) :
    insertField name v fields = .ok ((name, v) :: fields) := by
  have hLookup : fields.lookup name = none := by
    rw [List.lookup_eq_none_iff]
    intro field hField
    apply bne_iff_ne.mpr
    rintro rfl
    exact h (List.mem_map_of_mem hField)
  rw [insertField, hLookup]
  rfl

theorem insertField_duplicate {name : String} {fields : List (String × Value)}
    (h : name ∈ fields.map Prod.fst) (v : Value) :
    insertField name v fields = .error (.duplicateField name) := by
  obtain ⟨field, hField, rfl⟩ := List.mem_map.mp h
  have hLookup : (fields.lookup field.1).isSome = true := by
    rw [Option.isSome_iff_ne_none]
    intro hNone
    exact bne_iff_ne.mp (List.lookup_eq_none_iff.mp hNone field hField) rfl
  rw [insertField, if_pos hLookup]

theorem visitFlat_eq_ok {names : List String} {fields : List (String × Value)}
    (hNodup : ((fields.filter fun field => field.1 ∈ names).map Prod.fst).Nodup) :
    visitFlat names (fields.map entry) =
      .ok (fields.filter fun field => field.1 ∈ names,
        (fields.filter fun field => field.1 ∉ names).map entry) := by
  induction fields with
  | nil => rfl
  | cons field fields ih =>
    by_cases hNamed : field.1 ∈ names
    · rw [List.filter_cons_of_pos (by simpa using hNamed), List.map_cons, List.nodup_cons] at hNodup
      rw [List.map_cons, entry, visitFlat, ih hNodup.2]
      change (if field.1 ∈ names then _ else _) = _
      rw [if_pos hNamed, insertField_ok hNodup.1, List.filter_cons_of_pos (by simpa using hNamed),
        List.filter_cons_of_neg (by simpa using hNamed)]
      rfl
    · rw [List.filter_cons_of_neg (by simpa using hNamed)] at hNodup
      rw [List.map_cons, entry, visitFlat, ih hNodup]
      change (if field.1 ∈ names then _ else _) = _
      rw [if_neg hNamed, List.filter_cons_of_neg (by simpa using hNamed),
        List.filter_cons_of_pos (by simpa using hNamed)]
      rfl

theorem visitFlat_duplicate {names : List String} {fields : List (String × Value)}
    (hDuplicate : ¬ ((fields.filter fun field => field.1 ∈ names).map Prod.fst).Nodup) :
    ∃ e, visitFlat names (fields.map entry) = .error e := by
  induction fields with
  | nil => exact absurd List.nodup_nil hDuplicate
  | cons field fields ih =>
    by_cases hTail : ((fields.filter fun field => field.1 ∈ names).map Prod.fst).Nodup
    · by_cases hNamed : field.1 ∈ names
      · rw [List.filter_cons_of_pos (by simpa using hNamed), List.map_cons, List.nodup_cons] at hDuplicate
        have hAgain : field.1 ∈ (fields.filter fun field => field.1 ∈ names).map Prod.fst := by
          by_contra hFresh
          exact hDuplicate ⟨hFresh, hTail⟩
        refine ⟨.duplicateField field.1, ?_⟩
        rw [List.map_cons, entry, visitFlat, visitFlat_eq_ok hTail]
        change (if field.1 ∈ names then _ else _) = _
        rw [if_pos hNamed, insertField_duplicate hAgain]
        rfl
      · rw [List.filter_cons_of_neg (by simpa using hNamed)] at hDuplicate
        exact absurd hTail hDuplicate
    · obtain ⟨e, hError⟩ := ih hTail
      exact ⟨e, by rw [List.map_cons, entry, visitFlat, hError]; rfl⟩

theorem string_eq_ok {v : Value} {s : String} : string v = .ok s ↔ text v = some s := by
  rw [string]
  cases text v with
  | none => simp
  | some s' => simp

/-- What a flattened struct leaves over is an entry that is not named like a field. -/
theorem visitFlat_others {names : List String} {entries : List (Value × Value)}
    {fields : List (String × Value)} {others : List (Value × Value)}
    (h : visitFlat names entries = .ok (fields, others)) :
    ∀ item ∈ others, item ∈ entries ∧ ∀ name ∈ names, text item.1 ≠ some name := by
  induction entries generalizing fields others with
  | nil =>
    cases h
    exact List.forall_mem_nil _
  | cons first entries ih =>
    obtain ⟨key, v⟩ := first
    obtain ⟨⟨fields', others'⟩, hRest, hFirst⟩ := bind_eq_ok.mp h
    have hOthers : ∀ item ∈ others', item ∈ (key, v) :: entries ∧ ∀ name ∈ names, text item.1 ≠ some name :=
      fun item hItem => ⟨List.mem_cons_of_mem _ (ih hRest item hItem).1, (ih hRest item hItem).2⟩
    dsimp only at hFirst
    split at hFirst
    · rename_i keyName hText
      split at hFirst
      · obtain ⟨_, _, hResult⟩ := bind_eq_ok.mp hFirst
        cases hResult
        exact hOthers
      · rename_i hOther
        cases hFirst
        refine List.forall_mem_cons.mpr ⟨⟨List.mem_cons_self, ?_⟩, hOthers⟩
        intro name hName hSame
        obtain rfl := Option.some.inj (hText.symm.trans hSame)
        exact hOther hName
    · rename_i hText
      cases hFirst
      refine List.forall_mem_cons.mpr ⟨⟨List.mem_cons_self, ?_⟩, hOthers⟩
      intro name _ hSame
      cases hText.symm.trans hSame

theorem lookup_filter {names : List String} {fields : List (String × Value)} {name : String}
    (h : name ∈ names) : (fields.filter fun field => field.1 ∈ names).lookup name = fields.lookup name := by
  induction fields with
  | nil => rfl
  | cons field fields ih =>
    by_cases hNamed : field.1 ∈ names
    · rw [List.filter_cons_of_pos (by simpa using hNamed), List.lookup_cons, List.lookup_cons, ih]
    · have hOther : (name == field.1) = false := by
        apply beq_eq_false_iff_ne.mpr
        rintro rfl
        exact hNamed h
      rw [List.filter_cons_of_neg (by simpa using hNamed), List.lookup_cons, hOther, ih]

@[simp] theorem lookup_present_append (name other : String) (v : Option Value)
    (fields : List (String × Value)) :
    (present other v ++ fields).lookup name =
      if name = other then v.or (fields.lookup name) else fields.lookup name := by
  cases v with
  | none => split <;> rfl
  | some v =>
    by_cases h : name = other
    · subst h
      simp [present]
    · rw [if_neg h]
      change (match name == other with
        | true => some v
        | false => fields.lookup name) = _
      rw [beq_eq_false_iff_ne.mpr h]

@[simp] theorem lookup_present (name other : String) (v : Option Value) :
    (present other v).lookup name = if name = other then v else none := by
  rw [← List.append_nil (present other v), lookup_present_append, List.lookup_nil, Option.or_none]

theorem present_keys_sublist (name : String) (v : Option Value) :
    ((present name v).map Prod.fst).Sublist [name] := by
  cases v with
  | none => exact List.nil_sublist _
  | some v => exact List.Sublist.refl _

theorem mem_present {name : String} {v : Option Value} {field : String × Value} :
    field ∈ present name v ↔ v = some field.2 ∧ field.1 = name := by
  obtain ⟨key, w⟩ := field
  cases v with
  | none => simp [present]
  | some v =>
    simp only [present, Option.map_some, Option.toList_some, List.mem_singleton, Prod.mk.injEq,
      Option.some.injEq]
    exact ⟨fun h => ⟨h.2.symm, h.1⟩, fun h => ⟨h.2, h.1.symm⟩⟩

theorem mem_present_keys {name key : String} {v : Option Value} :
    key ∈ (present name v).map Prod.fst ↔ v.isSome = true ∧ key = name := by
  cases v <;> simp [present]

end Foundation.Serde
