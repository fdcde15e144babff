import Mathlib.Data.List.Nodup
import Mathlib.Order.Defs.PartialOrder

/-! # Caches that drop the least recently used entry

The entries stand in the order of their last use, the most recent first. A cache
never holds two entries for one key, nor more than its capacity.
-/
namespace Foundation

@[ext]
structure LruCache (κ ν : Type) where
  cap : Nat
  entries : List (κ × ν)
  cap_pos : 0 < cap
  distinct : (entries.map Prod.fst).Nodup
  length_le : entries.length ≤ cap

namespace LruCache

variable {κ ν τ : Type} [DecidableEq κ] {c : LruCache κ ν} {key other : κ} {value : ν}

def new (cap : Nat) (h : 0 < cap) : LruCache κ ν := ⟨cap, [], h, List.nodup_nil, Nat.zero_le cap⟩

def len (c : LruCache κ ν) : Nat := c.entries.length

/-- The value of the key, which stays where it is. -/
def peek (c : LruCache κ ν) (key : κ) : Option ν := (c.entries.find? (·.1 = key)).map Prod.snd

def without (entries : List (κ × ν)) (key : κ) : List (κ × ν) := entries.filter (·.1 ≠ key)

theorem not_mem_without (entries : List (κ × ν)) (key : κ) : key ∉ (without entries key).map Prod.fst := by
  simp [without]

theorem without_sublist (entries : List (κ × ν)) (key : κ) : (without entries key).Sublist entries :=
  List.filter_sublist

/-- A part of the entries, in their order. -/
def retain (c : LruCache κ ν) (entries : List (κ × ν)) (h : entries.Sublist c.entries) : LruCache κ ν :=
  ⟨c.cap, entries, c.cap_pos, c.distinct.sublist (h.map Prod.fst), Nat.le_trans h.length_le c.length_le⟩

def pop (c : LruCache κ ν) (key : κ) : LruCache κ ν := c.retain (without c.entries key) (without_sublist _ _)

def clear (c : LruCache κ ν) : LruCache κ ν := c.retain [] (List.nil_sublist _)

/-- The key becomes the most recent one, and the last entry is dropped when there is no room for it. -/
def put (c : LruCache κ ν) (key : κ) (value : ν) : LruCache κ ν where
  cap := c.cap
  entries := (key, value) :: (without c.entries key).take (c.cap - 1)
  cap_pos := c.cap_pos
  distinct := by
    have hRest := (List.take_sublist (c.cap - 1) _).trans (without_sublist c.entries key)
    refine List.nodup_cons.mpr ⟨?_, c.distinct.sublist (hRest.map Prod.fst)⟩
    intro hMem
    exact not_mem_without c.entries key ((List.take_sublist _ _).map Prod.fst |>.subset hMem)
  length_le := by
    have hPos := c.cap_pos
    simp only [List.length_cons, List.length_take]
    omega

/-- A value that is there is updated in place, which makes its key the most recent one. -/
def getMut (c : LruCache κ ν) (key : κ) (update : ν → ν) : Option (LruCache κ ν) :=
  (c.peek key).map fun value => c.put key (update value)

/-! ## Lookups -/

theorem peek_eq_some : c.peek key = some value ↔ (key, value) ∈ c.entries := by
  rw [peek, Option.map_eq_some_iff]
  constructor
  · rintro ⟨⟨found, _⟩, hFound, rfl⟩
    have hKey : found = key := by simpa using List.find?_some hFound
    rw [← hKey]
    exact List.mem_of_find?_eq_some hFound
  · intro hMem
    cases hFound : c.entries.find? (·.1 = key) with
    | none => simpa using List.find?_eq_none.mp hFound _ hMem
    | some found =>
      have hKey : found.1 = key := by simpa using List.find?_some hFound
      have hSame := List.inj_on_of_nodup_map c.distinct (List.mem_of_find?_eq_some hFound) hMem hKey
      exact ⟨found, rfl, congrArg Prod.snd hSame⟩

theorem peek_eq_none : c.peek key = none ↔ key ∉ c.entries.map Prod.fst := by
  rw [Option.eq_none_iff_forall_ne_some]
  constructor
  · intro hNone hMem
    obtain ⟨⟨_, value⟩, hEntry, rfl⟩ := List.mem_map.mp hMem
    exact hNone value (peek_eq_some.mpr hEntry)
  · intro hAbsent value hSome
    exact hAbsent (List.mem_map_of_mem (peek_eq_some.mp hSome))

theorem peek_isSome : (c.peek key).isSome ↔ key ∈ c.entries.map Prod.fst := by
  rw [Option.isSome_iff_ne_none, ne_eq, peek_eq_none, not_not]

/-! ## The entries after a step -/

theorem mem_without {entries : List (κ × ν)} {entry : κ × ν} :
    entry ∈ without entries key ↔ entry ∈ entries ∧ entry.1 ≠ key := by simp [without]

theorem without_length_lt {entries : List (κ × ν)} (h : key ∈ entries.map Prod.fst) :
    (without entries key).length < entries.length := by
  obtain ⟨entry, hEntry, rfl⟩ := List.mem_map.mp h
  refine Nat.lt_of_le_of_ne (without_sublist _ _).length_le ?_
  intro hLength
  have hAll := (without_sublist entries entry.1).eq_of_length hLength
  rw [← hAll] at hEntry
  exact (mem_without.mp hEntry).2 rfl

/-- The entries that remain when the key is put, in their order. -/
theorem kept_sublist (c : LruCache κ ν) (key : κ) :
    ((without c.entries key).take (c.cap - 1)).Sublist c.entries :=
  (List.take_sublist _ _).trans (without_sublist _ _)

/-- A key that is there leaves every other entry. -/
theorem kept_of_mem (h : key ∈ c.entries.map Prod.fst) :
    (without c.entries key).take (c.cap - 1) = without c.entries key := by
  apply List.take_of_length_le
  have hFewer := without_length_lt h
  have hLength := c.length_le
  omega

@[simp] theorem peek_put_self (c : LruCache κ ν) (key : κ) (value : ν) :
    (c.put key value).peek key = some value := peek_eq_some.mpr List.mem_cons_self

theorem peek_put_of_ne (hOther : other ≠ key) {found : ν} (h : (c.put key value).peek other = some found) :
    c.peek other = some found := by
  rcases List.mem_cons.mp (peek_eq_some.mp h) with hNew | hKept
  · exact absurd (congrArg Prod.fst hNew) hOther
  · exact peek_eq_some.mpr ((c.kept_sublist key).subset hKept)

/-- Where there is room for the key, every other entry stays. -/
theorem peek_put_of_room (hRoom : key ∈ c.entries.map Prod.fst ∨ c.entries.length < c.cap)
    (hOther : other ≠ key) : (c.put key value).peek other = c.peek other := by
  have hKept : (without c.entries key).take (c.cap - 1) = without c.entries key := by
    rcases hRoom with hMem | hLess
    · exact kept_of_mem hMem
    · apply List.take_of_length_le
      have hFewer := (without_sublist c.entries key).length_le
      omega
  apply Option.ext
  intro found
  constructor
  · exact peek_put_of_ne hOther
  · intro hFound
    have hEntry : (other, found) ∈ without c.entries key :=
      mem_without.mpr ⟨peek_eq_some.mp hFound, hOther⟩
    rw [← hKept] at hEntry
    exact peek_eq_some.mpr (List.mem_cons_of_mem _ hEntry)

theorem foldl_pop (keys : List κ) (c : LruCache κ ν) :
    (keys.foldl pop c).cap = c.cap ∧ (keys.foldl pop c).entries = c.entries.filter (·.1 ∉ keys) := by
  induction keys generalizing c with
  | nil => simp
  | cons key keys ih =>
    obtain ⟨hCap, hEntries⟩ := ih (c.pop key)
    refine ⟨hCap, hEntries.trans ?_⟩
    change (without c.entries key).filter (·.1 ∉ keys) = _
    rw [without, List.filter_filter]
    congr 1
    funext entry
    simp [Bool.and_comm]

/-- Popping the keys of the entries that are selected leaves the others. -/
theorem foldl_pop_filter (select : κ × ν → Bool) (c : LruCache κ ν) :
    (((c.entries.filter select).map Prod.fst).foldl pop c).entries = c.entries.filter (!select ·) := by
  rw [(foldl_pop _ c).2]
  apply List.filter_congr
  intro entry hMem
  cases hSelect : select entry with
  | true => simpa using ⟨entry.2, hMem, hSelect⟩
  | false =>
    simp only [List.mem_map, List.mem_filter, Bool.not_false, decide_eq_true_eq]
    rintro ⟨other, ⟨hOther, hSelected⟩, hKey⟩
    rw [List.inj_on_of_nodup_map c.distinct hOther hMem hKey, hSelect] at hSelected
    cases hSelected

/-! ## The order of use -/

section
variable [Preorder τ] {stamp : ν → τ}

/-- No entry is older than one behind it. -/
def Recency (stamp : ν → τ) (c : LruCache κ ν) : Prop :=
  c.entries.Pairwise fun newer older => stamp older.2 ≤ stamp newer.2

theorem Recency.put (h : Recency stamp c) (hNewest : ∀ entry ∈ c.entries, stamp entry.2 ≤ stamp value)
    (key : κ) : Recency stamp (c.put key value) :=
  List.pairwise_cons.mpr ⟨fun entry hMem => hNewest entry ((c.kept_sublist key).subset hMem),
    h.sublist (c.kept_sublist key)⟩

omit [DecidableEq κ] in
theorem Recency.retain (h : Recency stamp c) {entries : List (κ × ν)} (hSub : entries.Sublist c.entries) :
    Recency stamp (c.retain entries hSub) := h.sublist hSub

theorem eq_of_length_le_one {α : Type} {xs : List α} (h : xs.length ≤ 1) {x y : α} (hX : x ∈ xs)
    (hY : y ∈ xs) : x = y := by
  match xs, h, hX, hY with
  | [only], _, hX, hY => rw [List.mem_singleton.mp hX, List.mem_singleton.mp hY]

/-- What is dropped to make room is an oldest entry. -/
theorem Recency.dropped (h : Recency stamp c) {entry : κ × ν} (hMem : entry ∈ c.entries)
    (hDropped : entry.1 ∉ (c.put key value).entries.map Prod.fst) {kept : κ × ν} (hKept : kept ∈ c.entries) :
    stamp entry.2 ≤ stamp kept.2 := by
  obtain ⟨hOther, hLost⟩ := not_or.mp fun hPut => hDropped (List.mem_cons.mpr hPut)
  have hAbsent : key ∉ c.entries.map Prod.fst := by
    intro hPresent
    rw [kept_of_mem hPresent] at hLost
    exact hLost (List.mem_map_of_mem (mem_without.mpr ⟨hMem, hOther⟩))
  have hAll : without c.entries key = c.entries := by
    apply List.filter_eq_self.mpr
    intro other hOther
    have hNe : other.1 ≠ key := fun hSame => hAbsent (hSame ▸ List.mem_map_of_mem hOther)
    simpa using hNe
  rw [hAll] at hLost
  -- What is not kept stands behind what is, and there is room for all but one.
  have hSplit := List.take_append_drop (c.cap - 1) c.entries
  have hBack : ∀ other ∈ c.entries, other ∉ c.entries.take (c.cap - 1) →
      other ∈ c.entries.drop (c.cap - 1) := by
    intro other hOther hNotKept
    rw [← hSplit] at hOther
    exact (List.mem_append.mp hOther).resolve_left hNotKept
  have hEntry := hBack entry hMem fun hTake => hLost (List.mem_map_of_mem hTake)
  by_cases hFront : kept ∈ c.entries.take (c.cap - 1)
  · have hOrder := h
    rw [Recency, ← hSplit] at hOrder
    exact (List.pairwise_append.mp hOrder).2.2 kept hFront entry hEntry
  · have hLast := hBack kept hKept hFront
    have hOne : (c.entries.drop (c.cap - 1)).length ≤ 1 := by
      have hLength := c.length_le
      rw [List.length_drop]
      omega
    rw [eq_of_length_le_one hOne hEntry hLast]

end

end LruCache
end Foundation
