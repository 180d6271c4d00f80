import Mathlib.Data.List.Find
import Mathlib.Data.List.Nodup
import Mathlib.Tactic.Common

/-!
# Keyed tables

A table is a list of rows under pairwise distinct keys, in the order in which
the keys were first inserted.  It is at once a dictionary that remembers its
insertion order and a relational table with a primary key: assignment keeps the
place of a key that is present, an update rewrites values in place, and a
deletion closes the gap.
-/

set_option autoImplicit false

namespace Basis

universe u v w x

structure Table (K : Type u) (V : Type v) where
  entries : List (K × V)
  nodupKeys : (entries.map Prod.fst).Nodup

namespace Table

variable {K : Type u} {V : Type v} {W : Type w}

@[ext] theorem ext {left right : Table K V} (same : left.entries = right.entries) :
    left = right := by
  cases left
  cases right
  cases same
  rfl

instance [DecidableEq K] [DecidableEq V] : DecidableEq (Table K V) :=
  fun left right => decidable_of_iff (left.entries = right.entries) ⟨ext, congrArg entries⟩

def empty : Table K V := ⟨[], List.nodup_nil⟩

instance : Inhabited (Table K V) := ⟨empty⟩

def keys (table : Table K V) : List K := table.entries.map Prod.fst

/-- The values of the rows that satisfy `p`, in table order. -/
def select (table : Table K V) (p : K → V → Bool) : List V :=
  (table.entries.filter fun entry => p entry.1 entry.2).map Prod.snd

/-- Rewrites every value, possibly to another type; keys and order stay. -/
def mapValues (table : Table K V) (f : K → V → W) : Table K W where
  entries := table.entries.map fun entry => (entry.1, f entry.1 entry.2)
  nodupKeys := by
    simpa only [List.map_map, Function.comp_def] using table.nodupKeys

/-- Keeps the rows that satisfy `p`. -/
def filter (table : Table K V) (p : K → V → Bool) : Table K V where
  entries := table.entries.filter fun entry => p entry.1 entry.2
  nodupKeys := table.nodupKeys.sublist (List.filter_sublist.map Prod.fst)

/-- Appends a row under a key that is not present. -/
def append (table : Table K V) (key : K) (value : V) (fresh : key ∉ table.keys) :
    Table K V where
  entries := table.entries ++ [(key, value)]
  nodupKeys := by
    rw [List.map_append]
    refine List.nodup_append.mpr ⟨table.nodupKeys, List.nodup_singleton key, ?_⟩
    intro old oldMember new newMember same
    simp only [List.map_cons, List.map_nil, List.mem_singleton] at newMember
    subst newMember
    subst same
    exact fresh oldMember

section Lookup
variable [DecidableEq K]

def find? (table : Table K V) (key : K) : Option V :=
  (table.entries.find? fun entry => decide (entry.1 = key)).map Prod.snd

/-- Rewrites the value under one key, if it is present. -/
def modify (table : Table K V) (key : K) (f : V → V) : Table K V :=
  table.mapValues fun other value => if other = key then f value else value

/-- Assignment: in place when the key is present, at the end when it is not. -/
def set (table : Table K V) (key : K) (value : V) : Table K V :=
  if fresh : key ∉ table.keys then table.append key value fresh
  else table.modify key fun _ => value

def erase (table : Table K V) (key : K) : Table K V :=
  table.filter fun other _ => decide (other ≠ key)

end Lookup

/-! ## Rows and lookups -/

@[simp] theorem entries_empty : (empty : Table K V).entries = [] := rfl

@[simp] theorem entries_mapValues (table : Table K V) (f : K → V → W) :
    (table.mapValues f).entries =
      table.entries.map fun entry => (entry.1, f entry.1 entry.2) := rfl

@[simp] theorem entries_filter (table : Table K V) (p : K → V → Bool) :
    (table.filter p).entries =
      table.entries.filter fun entry => p entry.1 entry.2 := rfl

@[simp] theorem keys_mapValues (table : Table K V) (f : K → V → W) :
    (table.mapValues f).keys = table.keys := by
  simp only [keys, entries_mapValues, List.map_map, Function.comp_def]

theorem mem_keys_of_mem {table : Table K V} {key : K} {value : V}
    (member : (key, value) ∈ table.entries) : key ∈ table.keys :=
  List.mem_map.mpr ⟨(key, value), member, rfl⟩

theorem exists_of_mem_keys {table : Table K V} {key : K} (member : key ∈ table.keys) :
    ∃ value, (key, value) ∈ table.entries := by
  obtain ⟨⟨_, value⟩, found, rfl⟩ := List.mem_map.mp member
  exact ⟨value, found⟩

/-- Distinct keys make the value under a key unique. -/
theorem value_unique {table : Table K V} {key : K} {left right : V}
    (leftMember : (key, left) ∈ table.entries)
    (rightMember : (key, right) ∈ table.entries) : left = right := by
  have pairs := List.inj_on_of_nodup_map table.nodupKeys leftMember rightMember rfl
  exact congrArg Prod.snd pairs

theorem mem_select {table : Table K V} {p : K → V → Bool} {value : V} :
    value ∈ table.select p ↔ ∃ key, (key, value) ∈ table.entries ∧ p key value = true := by
  simp only [select, List.mem_map, List.mem_filter, Prod.exists]
  constructor
  · rintro ⟨key, other, ⟨member, holds⟩, rfl⟩
    exact ⟨key, member, holds⟩
  · rintro ⟨key, member, holds⟩
    exact ⟨key, value, ⟨member, holds⟩, rfl⟩

theorem select_eq_nil_iff {table : Table K V} {p : K → V → Bool} :
    table.select p = [] ↔ ∀ key value, (key, value) ∈ table.entries → p key value = false := by
  simp only [select, List.map_eq_nil_iff, List.filter_eq_nil_iff, Prod.forall,
    Bool.not_eq_true]

theorem mem_entries_mapValues {table : Table K V} {f : K → V → W} {key : K} {value : W} :
    (key, value) ∈ (table.mapValues f).entries ↔
      ∃ old, (key, old) ∈ table.entries ∧ f key old = value := by
  simp only [entries_mapValues, List.mem_map, Prod.exists, Prod.mk.injEq]
  constructor
  · rintro ⟨other, old, member, rfl, rfl⟩
    exact ⟨old, member, rfl⟩
  · rintro ⟨old, member, rfl⟩
    exact ⟨key, old, member, rfl, rfl⟩

theorem mem_entries_filter {table : Table K V} {p : K → V → Bool} {key : K} {value : V} :
    (key, value) ∈ (table.filter p).entries ↔
      (key, value) ∈ table.entries ∧ p key value = true := by
  simp only [entries_filter, List.mem_filter]

theorem select_mapValues (table : Table K V) (f : K → V → W) (p : K → W → Bool) :
    (table.mapValues f).select p =
      (table.entries.filter fun entry => p entry.1 (f entry.1 entry.2)).map
        fun entry => f entry.1 entry.2 := by
  simp only [select, entries_mapValues, List.filter_map, List.map_map, Function.comp_def]

/-- A selection inside a filter does not need the rows the filter drops. -/
theorem select_filter {table : Table K V} {p q : K → V → Bool}
    (inside : ∀ key value, p key value = true → q key value = true) :
    (table.filter q).select p = table.select p := by
  rw [select, select, entries_filter, List.filter_filter]
  congr 1
  apply List.filter_congr
  rintro ⟨key, value⟩ _
  cases holds : p key value with
  | false => rfl
  | true => rw [inside key value holds, Bool.true_and]

/-- A filter after a weaker filter. -/
theorem filter_filter {table : Table K V} {p q : K → V → Bool}
    (inside : ∀ key value, p key value = true → q key value = true) :
    (table.filter q).filter p = table.filter p := by
  apply ext
  rw [entries_filter, entries_filter, entries_filter, List.filter_filter]
  apply List.filter_congr
  rintro ⟨key, value⟩ _
  cases holds : p key value with
  | false => rfl
  | true => rw [inside key value holds, Bool.true_and]

theorem mapValues_congr {table : Table K V} {f g : K → V → W}
    (same : ∀ key value, (key, value) ∈ table.entries → f key value = g key value) :
    table.mapValues f = table.mapValues g := by
  apply ext
  apply List.map_congr_left
  rintro ⟨key, value⟩ member
  rw [same key value member]

theorem mapValues_mapValues {X : Type x} (table : Table K V) (f : K → V → W) (g : K → W → X) :
    (table.mapValues f).mapValues g = table.mapValues fun key value => g key (f key value) := by
  apply ext
  simp only [entries_mapValues, List.map_map, Function.comp_def]

theorem select_map (table : Table K V) (f : V → W) (p : K → W → Bool) :
    (table.mapValues fun _ value => f value).select p =
      (table.select fun key value => p key (f value)).map f := by
  rw [select_mapValues, select, List.map_map]
  rfl

/-- Rewriting keeps a selection and one column of it when it respects both. -/
theorem map_select_mapValues {X : Type x} (table : Table K V) (f : K → V → V) (p : K → V → Bool)
    (column : V → X) (sameSelection : ∀ key value, p key (f key value) = p key value)
    (sameColumn : ∀ key value, column (f key value) = column value) :
    ((table.mapValues f).select p).map column = (table.select p).map column := by
  rw [select_mapValues, select, List.map_map, List.map_map]
  simp only [sameSelection, Function.comp_def, sameColumn]

section Lookup
variable [DecidableEq K]

theorem find?_eq_some_iff {table : Table K V} {key : K} {value : V} :
    table.find? key = some value ↔ (key, value) ∈ table.entries := by
  simp only [find?, Option.map_eq_some_iff, Prod.exists]
  constructor
  · rintro ⟨other, found, lookup, rfl⟩
    have same : other = key := by
      simpa only [decide_eq_true_eq] using List.find?_some lookup
    subst same
    exact List.mem_of_find?_eq_some lookup
  · intro member
    cases lookup : table.entries.find? fun entry => decide (entry.1 = key) with
    | none =>
        have missing := List.find?_eq_none.mp lookup (key, value) member
        simp at missing
    | some entry =>
        obtain ⟨other, found⟩ := entry
        have same : other = key := by
          simpa only [decide_eq_true_eq] using List.find?_some lookup
        subst same
        have present := List.mem_of_find?_eq_some lookup
        exact ⟨other, found, rfl, value_unique present member⟩

theorem find?_eq_none_iff {table : Table K V} {key : K} :
    table.find? key = none ↔ key ∉ table.keys := by
  constructor
  · intro missing member
    obtain ⟨value, present⟩ := exists_of_mem_keys member
    rw [find?_eq_some_iff.mpr present] at missing
    exact Option.some_ne_none value missing
  · intro absent
    cases found : table.find? key with
    | none => rfl
    | some value =>
        exact absurd (mem_keys_of_mem (find?_eq_some_iff.mp found)) absent

theorem find?_isSome_iff {table : Table K V} {key : K} :
    (table.find? key).isSome = true ↔ key ∈ table.keys := by
  rw [← not_iff_not, Bool.not_eq_true, Option.isSome_eq_false_iff, Option.isNone_iff_eq_none,
    find?_eq_none_iff]

@[simp] theorem find?_empty (key : K) : (empty : Table K V).find? key = none := rfl

@[simp] theorem find?_mapValues (table : Table K V) (f : K → V → W) (key : K) :
    (table.mapValues f).find? key = (table.find? key).map (f key) := by
  apply Option.ext
  intro value
  rw [find?_eq_some_iff, mem_entries_mapValues, Option.map_eq_some_iff]
  simp only [find?_eq_some_iff]

theorem find?_filter (table : Table K V) (p : K → V → Bool) (key : K) :
    (table.filter p).find? key = (table.find? key).filter (p key) := by
  apply Option.ext
  intro value
  rw [find?_eq_some_iff, mem_entries_filter, Option.filter_eq_some_iff, find?_eq_some_iff]

theorem find?_modify_self (table : Table K V) (key : K) (f : V → V) :
    (table.modify key f).find? key = (table.find? key).map f := by
  rw [modify, find?_mapValues]
  simp only [if_true]

theorem find?_modify_ne (table : Table K V) {key other : K} (f : V → V) (different : other ≠ key) :
    (table.modify key f).find? other = table.find? other := by
  rw [modify, find?_mapValues]
  simp only [if_neg different, Option.map_id']

theorem find?_modify (table : Table K V) (key : K) (f : V → V) (other : K) :
    (table.modify key f).find? other =
      if other = key then (table.find? other).map f else table.find? other := by
  by_cases same : other = key
  · rw [if_pos same, same, find?_modify_self]
  · rw [if_neg same, find?_modify_ne table f same]

theorem modify_eq_self (table : Table K V) (key : K) (f : V → V) (same : ∀ value, f value = value) :
    table.modify key f = table := by
  apply ext
  simp only [modify, same, ite_self, entries_mapValues, List.map_id']

/-- Two updates of one row are the same when they do the same to the row that is there. -/
theorem modify_congr {table : Table K V} {key : K} {f g : V → V}
    (same : ∀ value, table.find? key = some value → f value = g value) :
    table.modify key f = table.modify key g := by
  apply mapValues_congr
  intro other value member
  by_cases own : other = key
  · subst own
    rw [if_pos rfl, if_pos rfl, same value (find?_eq_some_iff.mpr member)]
  · rw [if_neg own, if_neg own]

@[simp] theorem keys_modify (table : Table K V) (key : K) (f : V → V) :
    (table.modify key f).keys = table.keys :=
  keys_mapValues table _

theorem find?_append (table : Table K V) {key : K} (value : V) (fresh : key ∉ table.keys)
    (other : K) :
    (table.append key value fresh).find? other =
      if other = key then some value else table.find? other := by
  apply Option.ext
  intro found
  rw [find?_eq_some_iff]
  simp only [append, List.mem_append, List.mem_singleton, Prod.mk.injEq]
  by_cases same : other = key
  · subst same
    simp only [if_true, true_and, Option.some.injEq]
    constructor
    · rintro (member | rfl)
      · exact absurd (mem_keys_of_mem member) fresh
      · rfl
    · rintro rfl
      exact Or.inr rfl
  · simp only [same, false_and, or_false, if_false, find?_eq_some_iff]

theorem find?_set (table : Table K V) (key : K) (value : V) (other : K) :
    (table.set key value).find? other =
      if other = key then some value else table.find? other := by
  unfold set
  split
  · exact find?_append table value _ other
  · rename_i present
    by_cases same : other = key
    · subst same
      obtain ⟨old, member⟩ := exists_of_mem_keys (not_not.mp present)
      rw [find?_modify_self, find?_eq_some_iff.mpr member]
      simp only [Option.map_some, if_true]
    · rw [find?_modify_ne table _ same, if_neg same]

theorem entries_set_of_fresh {table : Table K V} {key : K} (value : V)
    (fresh : table.find? key = none) :
    (table.set key value).entries = table.entries ++ [(key, value)] := by
  have absent := find?_eq_none_iff.mp fresh
  simp only [set, absent, not_false_eq_true, dif_pos, append]

theorem keys_set_of_fresh {table : Table K V} {key : K} (value : V)
    (fresh : key ∉ table.keys) : (table.set key value).keys = table.keys ++ [key] := by
  have entriesEq := entries_set_of_fresh value (find?_eq_none_iff.mpr fresh)
  simp only [keys, entriesEq, List.map_append, List.map_cons, List.map_nil]

theorem keys_erase (table : Table K V) (key : K) :
    (table.erase key).keys = table.keys.filter fun other => decide (other ≠ key) := by
  simp only [keys, erase, entries_filter, List.filter_map, Function.comp_def]

theorem find?_erase (table : Table K V) (key other : K) :
    (table.erase key).find? other = if other = key then none else table.find? other := by
  rw [erase, find?_filter]
  by_cases same : other = key
  · cases found : table.find? other <;> simp [same, Option.filter]
  · cases found : table.find? other <;> simp [same, Option.filter]

theorem find?_erase_ne (table : Table K V) {key other : K} (different : other ≠ key) :
    (table.erase key).find? other = table.find? other := by
  rw [find?_erase, if_neg different]

theorem mem_keys_set {table : Table K V} {key other : K} {value : V} :
    other ∈ (table.set key value).keys ↔ other ∈ table.keys ∨ other = key := by
  rw [← find?_isSome_iff, ← find?_isSome_iff, find?_set]
  by_cases same : other = key <;> simp [same]

theorem mapValues_modify {X : Type x} (table : Table K V) (key : K) (g : V → V)
    (f : K → V → X) (g' : X → X) (commute : ∀ value, f key (g value) = g' (f key value)) :
    (table.modify key g).mapValues f = (table.mapValues f).modify key g' := by
  simp only [modify, mapValues_mapValues]
  apply mapValues_congr
  intro other value _
  by_cases same : other = key
  · subst same
    simp only [if_true, commute]
  · simp only [if_neg same]

theorem mapValues_set (table : Table K V) (key : K) (value : V) (f : K → V → W) :
    (table.set key value).mapValues f = (table.mapValues f).set key (f key value) := by
  by_cases fresh : key ∉ table.keys
  · apply ext
    have fresh' : (table.mapValues f).find? key = none := by
      rw [find?_eq_none_iff, keys_mapValues]
      exact fresh
    rw [entries_mapValues, entries_set_of_fresh value (find?_eq_none_iff.mpr fresh),
      entries_set_of_fresh _ fresh', List.map_append, entries_mapValues]
    rfl
  · have present : ¬ key ∉ (table.mapValues f).keys := by
      rw [keys_mapValues]
      exact fresh
    rw [set, dif_neg fresh, set, dif_neg present]
    exact mapValues_modify table key _ f _ fun _ => rfl

theorem mapValues_erase (table : Table K V) (key : K) (f : K → V → W) :
    (table.erase key).mapValues f = (table.mapValues f).erase key := by
  apply ext
  simp only [erase, entries_mapValues, entries_filter, List.filter_map, Function.comp_def]

/-- Rewriting a row that was just assigned is assigning the rewritten row. -/
theorem modify_set_self (table : Table K V) (key : K) (value : V) (f : V → V) :
    (table.set key value).modify key f = table.set key (f value) := by
  by_cases fresh : key ∉ table.keys
  · have missing := find?_eq_none_iff.mpr fresh
    have others : ∀ entry ∈ table.entries, entry.1 ≠ key := by
      rintro ⟨other, old⟩ member same
      exact fresh (same ▸ mem_keys_of_mem member)
    apply ext
    rw [modify, entries_mapValues, entries_set_of_fresh value missing,
      entries_set_of_fresh (f value) missing, List.map_append]
    congr 1
    · conv_rhs => rw [← List.map_id table.entries]
      apply List.map_congr_left
      intro entry member
      rw [if_neg (others entry member), id]
    · simp only [List.map_cons, List.map_nil, if_true]
  · apply ext
    simp only [set, dif_neg fresh, modify, entries_mapValues, List.map_map, Function.comp_def]
    apply List.map_congr_left
    intro entry _
    by_cases same : entry.1 = key
    · simp only [same, if_true]
    · simp only [if_neg same]

/-- Assigning what an update makes of a row is that update. -/
theorem set_eq_modify {table : Table K V} {key : K} {value : V} (f : V → V)
    (found : table.find? key = some value) : table.set key (f value) = table.modify key f := by
  have present : key ∈ table.keys := mem_keys_of_mem (find?_eq_some_iff.mp found)
  rw [set, dif_neg (not_not.mpr present)]
  apply modify_congr
  intro other same
  rw [Option.some.inj (found.symm.trans same)]

theorem erase_set_of_fresh {table : Table K V} {key : K} {value : V}
    (fresh : table.find? key = none) : (table.set key value).erase key = table := by
  have others : ∀ entry ∈ table.entries, decide (entry.1 ≠ key) = true := by
    rintro ⟨other, old⟩ member
    refine decide_eq_true fun same => ?_
    exact find?_eq_none_iff.mp fresh (same ▸ mem_keys_of_mem member)
  apply ext
  rw [erase, entries_filter, entries_set_of_fresh value fresh, List.filter_append,
    List.filter_eq_self.mpr others]
  simp

/-- A row outside the selection does not change it when it is assigned. -/
theorem select_set_of_not {table : Table K V} {key : K} {value : V} {p : K → V → Bool}
    (fresh : table.find? key = none) (outside : p key value = false) :
    (table.set key value).select p = table.select p := by
  rw [select, select, entries_set_of_fresh value fresh, List.filter_append, List.map_append]
  simp only [List.filter_cons, outside, Bool.false_eq_true, if_false, List.filter_nil,
    List.map_nil, List.append_nil]

/-- Selecting under one key finds at most the row of that key. -/
theorem select_key (table : Table K V) (key : K) (p : V → Bool) :
    (table.select fun other value => decide (other = key) && p value) =
      ((table.find? key).filter p).toList := by
  obtain ⟨entries, nodup⟩ := table
  simp only [select, find?]
  induction entries with
  | nil => rfl
  | cons entry rest ih =>
      obtain ⟨absent, restNodup⟩ := List.nodup_cons.mp nodup
      by_cases same : entry.1 = key
      · subst same
        have others : (rest.filter fun other => decide (other.1 = entry.1) && p other.2) = [] := by
          rw [List.filter_eq_nil_iff]
          intro other member holds
          rw [Bool.and_eq_true, decide_eq_true_eq] at holds
          exact absent (holds.1 ▸ List.mem_map_of_mem member)
        cases holds : p entry.2 <;> simp [holds, others, Option.filter]
      · simpa [same] using ih restNodup

/-- A search whose only possible hit is one key is a lookup of that key. -/
theorem find?_entries_eq {table : Table K V} {key : K} {p : K × V → Bool}
    (hits : ∀ entry ∈ table.entries, p entry = decide (entry.1 = key)) :
    table.entries.find? p = (table.find? key).map fun value => (key, value) := by
  rw [List.find?_congr hits, find?, Option.map_map]
  cases found : table.entries.find? fun entry => decide (entry.1 = key) with
  | none => rfl
  | some entry =>
      have same : entry.1 = key := by
        simpa only [decide_eq_true_eq] using List.find?_some found
      simp only [Option.map_some, Function.comp_apply, ← same]

theorem modify_modify (table : Table K V) (key : K) (f g : V → V) :
    (table.modify key f).modify key g = table.modify key fun value => g (f value) := by
  simp only [modify, mapValues_mapValues]
  apply mapValues_congr
  intro other value _
  by_cases same : other = key
  · simp only [same, if_true]
  · simp only [if_neg same]

/-- Two tables with the same keys in the same order and the same lookups are equal. -/
theorem ext_find? {left right : Table K V} (order : left.keys = right.keys)
    (same : ∀ key, left.find? key = right.find? key) : left = right := by
  apply ext
  apply List.ext_getElem?
  intro index
  have keyAt : (left.entries[index]?).map Prod.fst = (right.entries[index]?).map Prod.fst := by
    rw [← List.getElem?_map, ← List.getElem?_map]
    exact congrArg (fun list => list[index]?) order
  cases leftAt : left.entries[index]? with
  | none =>
      rw [leftAt, Option.map_none] at keyAt
      exact (Option.map_eq_none_iff.mp keyAt.symm).symm
  | some leftEntry =>
      rw [leftAt, Option.map_some] at keyAt
      obtain ⟨rightEntry, rightAt, keyEq⟩ := Option.map_eq_some_iff.mp keyAt.symm
      obtain ⟨leftKey, leftValue⟩ := leftEntry
      obtain ⟨rightKey, rightValue⟩ := rightEntry
      dsimp only at keyEq
      subst keyEq
      have leftFound := find?_eq_some_iff.mpr (List.mem_of_getElem? leftAt)
      have rightFound := find?_eq_some_iff.mpr (List.mem_of_getElem? rightAt)
      rw [same, rightFound] at leftFound
      rw [rightAt, Option.some.inj leftFound]

end Lookup

/-! ## The rows of some keys -/

/-- Keeps the rows whose keys satisfy `p`. -/
def restrict (table : Table K V) (p : K → Bool) : Table K V := table.filter fun key _ => p key

theorem select_restrict {table : Table K V} {p : K → Bool} {q : K → V → Bool}
    (inside : ∀ key value, q key value = true → p key = true) :
    (table.restrict p).select q = table.select q :=
  select_filter inside

theorem restrict_mapValues (table : Table K V) (p : K → Bool) (f : K → V → V) :
    (table.mapValues f).restrict p = (table.restrict p).mapValues f := by
  apply ext
  simp only [restrict, entries_filter, entries_mapValues, List.filter_map, Function.comp_def]

/-- An update outside the kept rows does not show. -/
theorem restrict_mapValues_of_not {table : Table K V} {p : K → Bool} {f : K → V → V}
    (outside : ∀ key value, p key = true → f key value = value) :
    (table.mapValues f).restrict p = table.restrict p := by
  rw [restrict_mapValues]
  apply ext
  rw [entries_mapValues]
  conv_rhs => rw [← List.map_id (table.restrict p).entries]
  apply List.map_congr_left
  intro entry member
  have kept := (List.mem_filter.mp member).2
  rw [outside entry.1 entry.2 kept, id]

theorem mem_keys_restrict {table : Table K V} {p : K → Bool} {key : K} :
    key ∈ (table.restrict p).keys ↔ key ∈ table.keys ∧ p key = true := by
  constructor
  · intro member
    obtain ⟨value, found⟩ := exists_of_mem_keys member
    obtain ⟨before, kept⟩ := mem_entries_filter.mp found
    exact ⟨mem_keys_of_mem before, kept⟩
  · intro both
    obtain ⟨value, found⟩ := exists_of_mem_keys both.1
    exact mem_keys_of_mem (mem_entries_filter.mpr ⟨found, both.2⟩)

section Restrict
variable [DecidableEq K]

theorem find?_restrict (table : Table K V) {p : K → Bool} {key : K} (inside : p key = true) :
    (table.restrict p).find? key = table.find? key := by
  rw [restrict, find?_filter]
  cases found : table.find? key <;> simp [Option.filter, inside]

theorem restrict_modify (table : Table K V) (p : K → Bool) (key : K) (f : V → V) :
    (table.modify key f).restrict p = (table.restrict p).modify key f :=
  restrict_mapValues table p _

theorem restrict_modify_of_not {table : Table K V} {p : K → Bool} {key : K} {f : V → V}
    (outside : p key = false) : (table.modify key f).restrict p = table.restrict p := by
  apply restrict_mapValues_of_not
  intro other value kept
  rw [if_neg]
  intro same
  rw [same, outside] at kept
  cases kept

theorem restrict_set {table : Table K V} {p : K → Bool} {key : K} {value : V}
    (inside : p key = true) :
    (table.set key value).restrict p = (table.restrict p).set key value := by
  by_cases fresh : key ∈ table.keys
  · have present : ¬ key ∉ (table.restrict p).keys :=
      not_not.mpr (mem_keys_restrict.mpr ⟨fresh, inside⟩)
    rw [set, dif_neg (not_not.mpr fresh), set, dif_neg present, restrict_modify]
  · have absent : key ∉ (table.restrict p).keys := fun member =>
      fresh (mem_keys_restrict.mp member).1
    rw [set, dif_pos fresh, set, dif_pos absent]
    apply ext
    simp only [restrict, append, entries_filter, List.filter_append, List.filter_cons, inside,
      if_true, List.filter_nil]

theorem restrict_set_of_not {table : Table K V} {p : K → Bool} {key : K} {value : V}
    (outside : p key = false) : (table.set key value).restrict p = table.restrict p := by
  by_cases fresh : key ∈ table.keys
  · rw [set, dif_neg (not_not.mpr fresh), restrict_modify_of_not outside]
  · rw [set, dif_pos fresh]
    apply ext
    simp only [restrict, append, entries_filter, List.filter_append, List.filter_cons, outside,
      Bool.false_eq_true, if_false, List.filter_nil, List.append_nil]

theorem restrict_erase (table : Table K V) (p : K → Bool) (key : K) :
    (table.erase key).restrict p = (table.restrict p).erase key := by
  apply ext
  simp only [restrict, erase, entries_filter, List.filter_filter, Bool.and_comm]

theorem restrict_erase_of_not {table : Table K V} {p : K → Bool} {key : K}
    (outside : p key = false) : (table.erase key).restrict p = table.restrict p := by
  apply ext
  simp only [restrict, erase, entries_filter, List.filter_filter]
  apply List.filter_congr
  intro entry _
  by_cases same : entry.1 = key
  · simp [same, outside]
  · simp [same]

end Restrict

end Table

end Basis
