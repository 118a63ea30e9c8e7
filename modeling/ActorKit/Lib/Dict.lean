import Mathlib.Data.List.AList

/-!
# Finite maps

Finite maps with one value type, over Mathlib's association lists with distinct
keys: the in-place updates a hash map offers (one entry, or every value) and
what they do to a lookup.
-/

namespace ActorKit

/-- A finite map from `K` to `V`. -/
abbrev Dict (K V : Type) := AList (fun _ : K => V)

namespace Dict
variable {K V : Type}

/-- Every value replaced in place; the keys and their order stay. -/
def mapValues (f : K → V → V) (d : Dict K V) : Dict K V where
  entries := d.entries.map (fun e => ⟨e.1,f e.1 e.2⟩)
  nodupKeys := by
    have same : (d.entries.map (fun e => (⟨e.1,f e.1 e.2⟩ : Σ _ : K, V))).keys = d.entries.keys := by
      simp [List.keys,Function.comp_def]
    rw [List.NodupKeys,same]
    exact d.nodupKeys

/-- The stored pairs, in storage order. -/
def items (d : Dict K V) : List (K × V) := d.entries.map (fun e => (e.1,e.2))

/-- The stored values, in storage order. -/
def values (d : Dict K V) : List V := d.items.map (·.2)

@[simp] theorem keys_mapValues (f : K → V → V) (d : Dict K V) : (d.mapValues f).keys = d.keys := by
  simp [AList.keys,mapValues,List.keys,Function.comp_def]

variable [DecidableEq K]

/-- One entry replaced in place, nothing when the key is absent. -/
def modify (k : K) (f : V → V) (d : Dict K V) : Dict K V :=
  mapValues (fun k' v => if k' = k then f v else v) d

theorem lookup_insert_ite (d : Dict K V) (k k' : K) (v : V) :
    (d.insert k v).lookup k' = if k' = k then some v else d.lookup k' := by
  by_cases same : k' = k
  · subst same; simp
  · simp [same,AList.lookup_insert_ne same]

theorem lookup_erase_ite (d : Dict K V) (k k' : K) :
    (d.erase k).lookup k' = if k' = k then none else d.lookup k' := by
  by_cases same : k' = k
  · subst same; simp
  · simp [same,AList.lookup_erase_ne same]

@[simp] theorem lookup_mapValues (f : K → V → V) (d : Dict K V) (k : K) :
    (d.mapValues f).lookup k = (d.lookup k).map (f k) :=
  List.dlookup_map₂ (f := fun a (v : V) => f a v) k

@[simp] theorem lookup_modify (d : Dict K V) (k k' : K) (f : V → V) :
    (d.modify k f).lookup k' = if k' = k then (d.lookup k').map f else d.lookup k' := by
  rw [modify,lookup_mapValues]
  by_cases same : k' = k
  · simp [same]
  · cases d.lookup k' <;> simp [same]

@[simp] theorem keys_modify (d : Dict K V) (k : K) (f : V → V) : (d.modify k f).keys = d.keys :=
  keys_mapValues _ d

theorem modify_absent (d : Dict K V) (k : K) (f : V → V) (absent : d.lookup k = none) : d.modify k f = d := by
  refine AList.ext ?_
  have outside : ∀ e ∈ d.entries, e.1 ≠ k := by
    rintro ⟨k',v⟩ member rfl
    exact AList.lookup_eq_none.mp absent (AList.mem_keys.mpr (List.mem_keys_of_mem member))
  simp only [modify,mapValues]
  conv_rhs => rw [← List.map_id d.entries]
  refine List.map_congr_left (fun e member => ?_)
  simp [outside e member]

@[simp] theorem modify_modify (d : Dict K V) (k : K) (f g : V → V) :
    modify k g (d.modify k f) = d.modify k (fun v => g (f v)) := by
  refine AList.ext ?_
  simp only [modify,mapValues,List.map_map]
  refine List.map_congr_left (fun e _ => ?_)
  by_cases same : e.1 = k
  · simp [same]
  · simp [same]

/-- Replacing a value by itself changes nothing. -/
theorem modify_fixed {d : Dict K V} {k : K} {v : V} {f : V → V} (found : d.lookup k = some v) (fixed : f v = v) :
    d.modify k f = d := by
  refine AList.ext ?_
  simp only [modify,mapValues]
  conv_rhs => rw [← List.map_id d.entries]
  refine List.map_congr_left (fun e member => ?_)
  by_cases same : e.1 = k
  · obtain ⟨k',v'⟩ := e
    subst same
    obtain rfl : v' = v := Option.some_inj.mp ((AList.mem_lookup_iff.mpr member).symm.trans found)
    simp [fixed]
  · simp [same]

theorem mem_items (d : Dict K V) (k : K) (v : V) : (k,v) ∈ d.items ↔ d.lookup k = some v := by
  rw [← Option.mem_def,AList.mem_lookup_iff]
  constructor
  · intro listed
    obtain ⟨entry,member,same⟩ := List.mem_map.mp listed
    cases same
    exact member
  · intro member
    exact List.mem_map.mpr ⟨⟨k,v⟩,member,rfl⟩

theorem erase_absent (d : Dict K V) (k : K) (absent : d.lookup k = none) : d.erase k = d :=
  AList.ext (List.kerase_of_notMem_keys (AList.lookup_eq_none.mp absent))

theorem values_insert (d : Dict K V) (k : K) (v : V) : values (d.insert k v) = v :: values (d.erase k) := rfl

theorem values_erase_sublist (d : Dict K V) (k : K) : (values (d.erase k)).Sublist d.values :=
  ((List.kerase_sublist k d.entries).map _).map _

/-- Erasing a key takes its value away. -/
theorem values_erase {d : Dict K V} {k : K} {v : V} (found : d.lookup k = some v) :
    d.values.Perm (v :: values (d.erase k)) := by
  have present : k ∈ d.keys := (AList.lookup_isSome.mp (by rw [found]; rfl))
  obtain ⟨v',before,after,-,split,erased⟩ := List.exists_of_kerase present
  have here : d.lookup k = some v' := (AList.mem_lookup_iff.mpr (by rw [split]; simp))
  obtain rfl : v' = v := Option.some_inj.mp (here.symm.trans found)
  have left : (d.erase k).entries = before ++ after := erased
  rw [values,items,values,items,split,left]
  simp

/-- Reading every value is looking up every key. -/
theorem items_map_snd {W : Type} (d : Dict K V) (g : V → W) (fallback : V) :
    d.items.map (fun e => g e.2) = d.keys.map (fun k => g ((d.lookup k).getD fallback)) := by
  have keys : d.keys = d.items.map (·.1) := by simp [AList.keys,List.keys,items,Function.comp_def]
  rw [keys,List.map_map]
  refine List.map_congr_left (fun e member => ?_)
  have found := (mem_items d e.1 e.2).mp member
  simp [found]

theorem mem_keys_iff (d : Dict K V) (k : K) : k ∈ d.keys ↔ ∃ v, d.lookup k = some v := by
  rw [← AList.mem_keys,← AList.lookup_isSome,Option.isSome_iff_exists]

end Dict
end ActorKit
