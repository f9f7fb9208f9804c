import Mathlib.Data.List.Nodup
import Mathlib.Data.List.Perm.Basic
import PL0.Scope.Table

/-!
# The entries of a scope

A list of entries is searched for a name from its beginning, so of two
entries for one name the second is never found.  Leaving all such entries out
changes no search; what remains has each name once, in the order in which the
names came first.

A scope keeps what its names stand for apart from their order.  As long as
only new names are added, the order has just the names that are found, each
once, and its entries are those that were added, in the order of adding.
-/

namespace PL0

section Lookup

variable {β : Type} {listed other : List (String × β)}

theorem lookup_eq_none_iff_not_mem (name : String) :
    listed.lookup name = none ↔ name ∉ listed.map Prod.fst := by
  rw [List.lookup_eq_none_iff]
  simp only [bne_iff_ne, List.mem_map, not_exists, not_and]
  exact ⟨fun absent entry member same => absent entry member same.symm,
    fun absent entry member same => absent entry member same.symm⟩

theorem isSome_lookup_iff (name : String) :
    (listed.lookup name).isSome ↔ name ∈ listed.map Prod.fst := by
  rw [← not_iff_not, ← lookup_eq_none_iff_not_mem,
    Option.not_isSome_iff_eq_none]

/-- Where no name is given twice, a name is found exactly if it is listed. -/
theorem lookup_eq_some_iff_mem (distinct : (listed.map Prod.fst).Nodup)
    {name : String} {item : β} :
    listed.lookup name = some item ↔ (name, item) ∈ listed := by
  rw [List.lookup_eq_some_iff]
  constructor
  · rintro ⟨before, after, split, _⟩
    simp [split]
  · intro member
    obtain ⟨before, after, split⟩ := List.mem_iff_append.mp member
    refine ⟨before, after, split, ?_⟩
    intro earlier earlierMember
    rw [split, List.map_append, List.nodup_append] at distinct
    have differs :=
      distinct.2.2 earlier.1 (List.mem_map_of_mem earlierMember) name (by simp)
    simpa using Ne.symm differs

/-- An entry at the end is found if the name is new. -/
theorem lookup_concat_of_fresh {name : String}
    (fresh : listed.lookup name = none) (item : β) (other : String) :
    (listed ++ [(name, item)]).lookup other =
      if name = other then some item else listed.lookup other := by
  rw [List.lookup_append]
  by_cases same : name = other
  · subst same
    simp [fresh]
  · have differs : (other == name) = false := by simpa using Ne.symm same
    simp [List.lookup_cons, same, differs]

/-- An entry at the end is not found if the name is taken. -/
theorem lookup_concat_of_taken {name : String} {existing : β}
    (found : listed.lookup name = some existing) (item : β) (other : String) :
    (listed ++ [(name, item)]).lookup other = listed.lookup other := by
  rw [List.lookup_append]
  by_cases same : name = other
  · subst same
    simp [found]
  · have differs : (other == name) = false := by simpa using Ne.symm same
    simp [List.lookup_cons, differs]

theorem lookup_eq_of_perm (perm : listed.Perm other)
    (distinct : (listed.map Prod.fst).Nodup) (name : String) :
    listed.lookup name = other.lookup name := by
  have otherDistinct : (other.map Prod.fst).Nodup :=
    (perm.map Prod.fst).nodup_iff.mp distinct
  ext item
  rw [lookup_eq_some_iff_mem distinct, lookup_eq_some_iff_mem otherDistinct,
    perm.mem_iff]

end Lookup

section Firsts

variable {β : Type}

/-- Of each name the entry that comes first. -/
def firstEntries : List (String × β) → List (String × β)
  | [] => []
  | entry :: others => entry :: (firstEntries others).filter fun other =>
      other.1 ≠ entry.1

theorem mem_map_fst_firstEntries (listed : List (String × β)) (name : String) :
    name ∈ (firstEntries listed).map Prod.fst ↔ name ∈ listed.map Prod.fst := by
  induction listed with
  | nil => rfl
  | cons entry others ih =>
      simp only [firstEntries, List.map_cons, List.mem_cons, ← ih]
      by_cases same : name = entry.1 <;> simp [same]

theorem nodup_map_fst_firstEntries (listed : List (String × β)) :
    ((firstEntries listed).map Prod.fst).Nodup := by
  induction listed with
  | nil => exact List.nodup_nil
  | cons entry others ih =>
      rw [firstEntries, List.map_cons, List.nodup_cons]
      refine ⟨by simp, ?_⟩
      exact ih.sublist (List.filter_sublist.map Prod.fst)

/-- An entry at the end stays if its name is new, and is left out if it is
not. -/
theorem firstEntries_concat (listed : List (String × β)) (entry : String × β) :
    firstEntries (listed ++ [entry]) =
      if entry.1 ∈ listed.map Prod.fst then firstEntries listed
      else firstEntries listed ++ [entry] := by
  induction listed with
  | nil => rfl
  | cons first others ih =>
      rw [List.cons_append, firstEntries, ih, firstEntries]
      by_cases same : entry.1 = first.1
      · rw [if_pos (show entry.1 ∈
          (first :: others).map Prod.fst by simp [same])]
        split
        · rfl
        · simp [List.filter_append, same]
      · have listedIff : entry.1 ∈ (first :: others).map Prod.fst ↔
            entry.1 ∈ others.map Prod.fst := by simp [same]
        simp only [listedIff]
        split
        · rfl
        · simp [List.filter_append, same]

end Firsts

namespace Scope

variable {scope : Scope} {name : String}

theorem find?_empty (kind : ScopeKind) (parent? : Option ScopeId)
    (name : String) : (empty kind parent?).find? name = none :=
  Std.ExtTreeMap.getElem?_empty

theorem find?_add (scope : Scope) (name : String) (binding : Binding)
    (other : String) :
    (scope.add name binding).find? other =
      if name = other then some binding else scope.find? other := by
  rw [find?, add, Std.ExtTreeMap.getElem?_insert]
  simp [find?]

theorem mem_meanings_iff (scope : Scope) (name : String) :
    name ∈ scope.meanings ↔ (scope.find? name).isSome :=
  Std.ExtTreeMap.mem_iff_isSome_getElem?

/-- The order has just the names that stand for something, each once. -/
structure Consistent (scope : Scope) : Prop where
  distinct : scope.order.Nodup
  complete : ∀ name, name ∈ scope.order ↔ name ∈ scope.meanings

theorem consistent_empty (kind : ScopeKind) (parent? : Option ScopeId) :
    (empty kind parent?).Consistent where
  distinct := List.nodup_nil
  complete := by
    intro name
    rw [mem_meanings_iff, find?_empty]
    simp [empty]

theorem Consistent.not_mem_order (consistent : scope.Consistent)
    (missing : scope.find? name = none) : name ∉ scope.order := by
  rw [consistent.complete, mem_meanings_iff, missing]
  simp

/-- A new name keeps order and meanings together. -/
theorem Consistent.add (consistent : scope.Consistent)
    (missing : scope.find? name = none) (binding : Binding) :
    (scope.add name binding).Consistent where
  distinct := by
    change (scope.order ++ [name]).Nodup
    rw [← List.concat_eq_append]
    exact consistent.distinct.concat (consistent.not_mem_order missing)
  complete := by
    intro other
    change other ∈ scope.order ++ [name] ↔ _
    rw [List.mem_append, List.mem_singleton, consistent.complete,
      mem_meanings_iff, mem_meanings_iff, find?_add]
    by_cases same : name = other
    · simp [same]
    · simp [same, Ne.symm same]

/-- A new name comes behind the others, which stand for what they did. -/
theorem Consistent.entries_add (consistent : scope.Consistent)
    (missing : scope.find? name = none) (binding : Binding) :
    (scope.add name binding).entries = scope.entries ++ [(name, binding)] := by
  have others : ∀ other ∈ scope.order,
      ((scope.add name binding).find? other).map (fun found => (other, found)) =
        (scope.find? other).map fun found => (other, found) := by
    intro other member
    have differs : name ≠ other := by
      rintro rfl
      exact consistent.not_mem_order missing member
    rw [find?_add, if_neg differs]
  change List.filterMap _ (scope.order ++ [name]) = _
  rw [List.filterMap_append, List.filterMap_congr others]
  simp [find?_add, entries]

theorem Consistent.map_fst_entries (consistent : scope.Consistent) :
    scope.entries.map Prod.fst = scope.order := by
  have each : ∀ name ∈ scope.order,
      ((scope.find? name).map fun binding => (name, binding)).map Prod.fst =
        some name := by
    intro name member
    rw [consistent.complete, mem_meanings_iff] at member
    obtain ⟨binding, found⟩ := Option.isSome_iff_exists.mp member
    rw [found]
    rfl
  rw [entries, List.map_filterMap, List.filterMap_congr each]
  exact List.filterMap_some

end Scope

end PL0
