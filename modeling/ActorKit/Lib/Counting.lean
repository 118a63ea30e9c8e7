import Mathlib.Algebra.BigOperators.Group.List.Basic
import Mathlib.Algebra.Order.BigOperators.Group.List
import Mathlib.Algebra.Order.Group.Nat
import Mathlib.Algebra.GroupWithZero.Nat
import Mathlib.Data.List.Nodup
import Mathlib.Tactic.Common
import ActorKit.Lib.Dict

/-!
# Counting

Sums over lists: splitting a list by a key, and what a sum or the present values
of a list, or of a finite map, are after one element is replaced.
-/

namespace ActorKit.Counting
variable {α K : Type}

/-- Counting per key counts everything, when the distinct keys cover the list. -/
theorem sum_filter_length [DecidableEq K] (key : α → K) (keys : List K) (distinct : keys.Nodup) (items : List α)
    (covered : ∀ x ∈ items, key x ∈ keys) :
    (keys.map (fun k => (items.filter (fun x => key x = k)).length)).sum = items.length := by
  induction items with
  | nil => simp
  | cons x items ih =>
    have rest := ih (fun y member => covered y (List.mem_cons_of_mem _ member))
    have once : (keys.map (fun k => if key x = k then 1 else 0)).sum = 1 := by
      have count : (keys.map (fun k => if key x = k then 1 else 0)).sum = keys.count (key x) := by
        clear distinct covered rest ih
        induction keys with
        | nil => rfl
        | cons k keys ih =>
          simp only [List.map_cons,List.sum_cons,ih,List.count_cons]
          by_cases same : key x = k
          · simp [same]; omega
          · simp [same,Ne.symm same]
      rw [count,List.count_eq_one_of_mem distinct (covered x List.mem_cons_self)]
    have split : ∀ k, ((x :: items).filter (fun y => key y = k)).length =
        (if key x = k then 1 else 0) + (items.filter (fun y => key y = k)).length := by
      intro k
      by_cases same : key x = k <;> simp [same]; omega
    simp only [split,List.sum_map_add,once,rest,List.length_cons]
    omega

/-- Writing what is there already. -/
theorem set_same {items : List α} {i : Nat} {x : α} (found : items[i]? = some x) : items.set i x = items := by
  obtain ⟨bound,rfl⟩ := List.getElem?_eq_some_iff.mp found
  exact List.set_getElem_self bound

/-- Replacing one element moves a sum by what the element counts. -/
theorem sum_map_set (count : α → Nat) {items : List α} {i : Nat} {old : α} (found : items[i]? = some old) (new : α) :
    ((items.set i new).map count).sum + count old = (items.map count).sum + count new := by
  induction items generalizing i with
  | nil => cases found
  | cons x items ih =>
    cases i with
    | zero =>
      cases found
      simp only [List.set_cons_zero,List.map_cons,List.sum_cons]
      omega
    | succ i =>
      have rest := ih (i := i) (by simpa using found)
      simp only [List.set_cons_succ,List.map_cons,List.sum_cons]
      omega

/-- Filling an empty place adds the value to those present. -/
theorem present_set {items : List (Option α)} {i : Nat} (vacant : items[i]? = some none) (x : α) :
    ((items.set i (some x)).filterMap id).Perm (x :: items.filterMap id) := by
  induction items generalizing i with
  | nil => cases vacant
  | cons first items ih =>
    cases i with
    | zero =>
      cases vacant
      exact .refl _
    | succ i =>
      have rest := ih (i := i) (by simpa using vacant)
      cases first with
      | none => simpa using rest
      | some y => simpa using (rest.cons y).trans (.swap x y _)

theorem modify_found {items : List α} {i : Nat} {x : α} (found : items[i]? = some x) (f : α → α) :
    items.modify i f = items.set i (f x) := by
  rw [List.modify_eq_set_getElem?,found]
  rfl

theorem sum_map_modify (count : α → Nat) {items : List α} {i : Nat} {old : α} (found : items[i]? = some old)
    (f : α → α) : ((items.modify i f).map count).sum + count old = (items.map count).sum + count (f old) := by
  rw [modify_found found]
  exact sum_map_set count found (f old)

/-- Replacing one value moves a sum over the values by what the value counts. -/
theorem sum_modify [DecidableEq K] (count : α → Nat) {d : Dict K α} {k : K} {v : α} (found : d.lookup k = some v) (f : α → α) :
    (((d.modify k f).values).map count).sum + count v = ((d.values).map count).sum + count (f v) := by
  have present : k ∈ d.keys := (AList.lookup_isSome.mp (by rw [found]; rfl))
  obtain ⟨v',before,after,fresh,split,-⟩ := List.exists_of_kerase present
  have here : d.lookup k = some v' := (AList.mem_lookup_iff.mpr (by rw [split]; simp))
  obtain rfl : v' = v := Option.some_inj.mp (here.symm.trans found)
  have later : k ∉ after.keys := by
    have distinct := d.nodupKeys
    rw [split,List.NodupKeys,List.keys,List.map_append,List.map_cons] at distinct
    exact (List.nodup_cons.mp (List.nodup_append.mp distinct).2.1).1
  have same : ∀ part : List (Σ _ : K, α), k ∉ part.keys →
      part.map (fun e => count (if e.1 = k then f e.2 else e.2)) = part.map (fun e => count e.2) := by
    intro part outside
    refine List.map_congr_left (fun e member => ?_)
    have other : e.1 ≠ k := fun clash => outside (clash ▸ List.mem_keys_of_mem member)
    rw [if_neg other]
  simp only [Dict.modify,Dict.mapValues,Dict.values,Dict.items,split,List.map_append,List.map_cons,List.map_map,
    List.sum_append,List.sum_cons,Function.comp_def,if_true,same before fresh,same after later]
  omega

theorem le_sum_map (count : α → Nat) {items : List α} {x : α} (member : x ∈ items) :
    count x ≤ (items.map count).sum :=
  List.le_sum_of_mem (List.mem_map_of_mem member)

theorem sum_map_mono (few many : α → Nat) (items : List α) (fewer : ∀ x ∈ items, few x ≤ many x) :
    (items.map few).sum ≤ (items.map many).sum := by
  induction items with
  | nil => exact Nat.le_refl _
  | cons x items ih =>
    have first := fewer x List.mem_cons_self
    have rest := ih (fun y member => fewer y (List.mem_cons_of_mem _ member))
    simp only [List.map_cons,List.sum_cons]
    omega

theorem sum_map_eq_zero (count : α → Nat) (items : List α) (none : ∀ x ∈ items, count x = 0) :
    (items.map count).sum = 0 := by
  rw [List.sum_eq_zero_iff]
  simpa using none

theorem count_le_sum_map [DecidableEq α] (count : α → Nat) {x : α} (counts : 1 ≤ count x) (items : List α) :
    items.count x ≤ (items.map count).sum := by
  induction items with
  | nil => exact Nat.le_refl _
  | cons y items ih =>
    rw [List.count_cons,List.map_cons,List.sum_cons]
    split
    · next same =>
      rw [eq_of_beq same]
      omega
    · omega

/-- Two elements that both count cannot share a sum of one. -/
theorem eq_of_sum_le_one (count : α → Nat) {items : List α} (once : (items.map count).sum ≤ 1) {x y : α}
    (first : x ∈ items) (second : y ∈ items) (counts : 1 ≤ count x) (too : 1 ≤ count y) : x = y := by
  induction items with
  | nil => cases first
  | cons z items ih =>
    rw [List.map_cons,List.sum_cons] at once
    rcases List.mem_cons.mp first with rfl | inFirst
    · rcases List.mem_cons.mp second with rfl | inSecond
      · rfl
      · have more := le_sum_map count inSecond
        omega
    · rcases List.mem_cons.mp second with rfl | inSecond
      · have more := le_sum_map count inFirst
        omega
      · exact ih (by omega) inFirst inSecond

/-- What stands before an element that occurs once stands before its place. -/
theorem mem_before [DecidableEq α] {x y : α} {items before after : List α} (order : [x,y].Sublist items)
    (split : items = before ++ y :: after) (once : items.count y ≤ 1) : x ∈ before := by
  have elsewhere : y ∉ before ∧ y ∉ after := by
    rw [split,List.count_append,List.count_cons_self] at once
    constructor <;> intro member
    · have := List.count_pos_iff.mpr member
      omega
    · have := List.count_pos_iff.mpr member
      omega
  rw [split] at order
  obtain ⟨left,right,same,inBefore,inAfter⟩ := List.sublist_append_iff.mp order
  match left,same with
  | [],same =>
    rw [List.nil_append] at same
    subst same
    rcases List.sublist_cons_iff.mp inAfter with later | ⟨rest,head,later⟩
    · exact absurd (later.subset (by simp)) elsewhere.2
    · obtain ⟨-,rfl⟩ := List.cons.inj head
      exact absurd (later.subset (by simp)) elsewhere.2
  | z :: left,same =>
    obtain ⟨rfl,-⟩ := List.cons.inj same
    exact inBefore.subset List.mem_cons_self

/-- One element is replaced, and the count with it. -/
theorem countP_set {p : α → Bool} {items : List α} {i : Nat} {old : α} (found : items[i]? = some old) (new : α) :
    (items.set i new).countP p + (if p old then 1 else 0) = items.countP p + (if p new then 1 else 0) := by
  obtain ⟨bound,rfl⟩ := List.getElem?_eq_some_iff.mp found
  rw [List.countP_set bound]
  by_cases counted : p items[i] = true
  · have positive : 0 < items.countP p := List.countP_pos_iff.mpr ⟨_,List.getElem_mem bound,counted⟩
    simp only [counted,if_true]
    omega
  · simp [counted]

end ActorKit.Counting
