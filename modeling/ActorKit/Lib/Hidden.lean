import Mathlib.Tactic.Common
import ActorKit.Lib.Program

/-!
# Programs that do not see a part of their state

Two runs start in states that differ in a hidden part only, and the hidden parts
are related. A program is blind if it then ends both times the same way, with the
same value or the same failure, in states that again differ in related hidden
parts only.
-/

namespace ActorKit.Hidden
variable {σ τ ε α β γ δ : Type}

/-- Two states with related hidden parts and the same rest. -/
def Twin (put : τ → σ → σ) (T : τ → τ → Prop) (s s' : σ) : Prop :=
  ∃ t t' rest, T t t' ∧ s = put t rest ∧ s' = put t' rest

/-- Two results side by side: related values, or the same failure. -/
def Alike (put : τ → σ → σ) (T : τ → τ → Prop) (V : α → β → Prop) :
    EStateM.Result ε σ α → EStateM.Result ε σ β → Prop
  | .ok a s,.ok b s' => V a b ∧ Twin put T s s'
  | .error e s,.error e' s' => e = e' ∧ Twin put T s s'
  | _,_ => False

/-- Two programs give related values. -/
def Related (put : τ → σ → σ) (T : τ → τ → Prop) (V : α → β → Prop) (p : EStateM ε σ α) (q : EStateM ε σ β) : Prop :=
  ∀ s s', Twin put T s s' → Alike put T V (p s) (q s')

/-- A program gives the same value whatever is hidden. -/
def Blind (put : τ → σ → σ) (T : τ → τ → Prop) (p : EStateM ε σ α) : Prop := Related put T Eq p p

variable {put : τ → σ → σ} {T : τ → τ → Prop}

theorem Related.bind {V : α → β → Prop} {W : γ → δ → Prop} {p : EStateM ε σ α} {q : EStateM ε σ β}
    {k : α → EStateM ε σ γ} {l : β → EStateM ε σ δ} (first : Related put T V p q)
    (rest : ∀ a b, V a b → Related put T W (k a) (l b)) : Related put T W (p >>= k) (q >>= l) := by
  intro s s' twin
  have step := first s s' twin
  rw [Program.bind_run,Program.bind_run]
  match p s,q s',step with
  | .ok a t,.ok b t',⟨values,twin⟩ => exact rest a b values t t' twin
  | .error e t,.error _ t',⟨same,twin⟩ => exact ⟨same,twin⟩

/-- Computations that only fail. -/
theorem Related.lift {V : α → β → Prop} {x : Except ε α} {y : Except ε β}
    (same : match x,y with
      | .ok a,.ok b => V a b
      | .error e,.error e' => e = e'
      | _,_ => False) : Related put T V (Program.lift x) (Program.lift y) := by
  intro s s' twin
  match x,y,same with
  | .ok a,.ok b,same => exact ⟨same,twin⟩
  | .error e,.error _,same => exact ⟨same,twin⟩

theorem Related.modifyGet {V : α → β → Prop} (f : σ → α × σ) (g : σ → β × σ)
    (after : ∀ t t' rest, T t t' → V (f (put t rest)).1 (g (put t' rest)).1 ∧
      Twin put T (f (put t rest)).2 (g (put t' rest)).2) :
    Related put T V (modifyGet f : EStateM ε σ α) (modifyGet g : EStateM ε σ β) := by
  rintro s s' ⟨t,t',rest,related,rfl,rfl⟩
  exact after t t' rest related

namespace Blind

theorem pure (a : α) : Blind put T (pure a : EStateM ε σ α) := fun _ _ twin => ⟨rfl,twin⟩

theorem throw (e : ε) : Blind put T (throw e : EStateM ε σ α) := fun _ _ twin => ⟨rfl,twin⟩

theorem bind {p : EStateM ε σ α} {k : α → EStateM ε σ β} (first : Blind put T p) (rest : ∀ a, Blind put T (k a)) :
    Blind put T (p >>= k) := by
  refine Related.bind first (fun a b same => ?_)
  cases same
  exact rest a

theorem lift (x : Except ε α) : Blind put T (Program.lift x : EStateM ε σ α) := by
  cases x with
  | ok a => exact pure a
  | error e => exact throw e

theorem lift_bind (x : Except ε α) {k : α → EStateM ε σ β} (rest : ∀ a, Blind put T (k a)) :
    Blind put T (Program.lift x >>= k) :=
  bind (lift x) rest

/-- What is read of the state is not hidden. -/
theorem get_bind {k : σ → EStateM ε σ β} (same : ∀ t t' rest, T t t' → k (put t rest) = k (put t' rest))
    (rest : ∀ s, Blind put T (k s)) : Blind put T (get >>= k) := by
  rintro s s' ⟨t,t',visible,related,rfl,rfl⟩
  have same := same t t' visible related
  show Alike put T Eq (k (put t visible) (put t visible)) (k (put t' visible) (put t' visible))
  rw [← same]
  exact rest _ _ _ ⟨t,t',visible,related,rfl,rfl⟩

/-- A change that leaves what is hidden alone. -/
theorem modify {f : σ → σ} (commutes : ∀ t rest, f (put t rest) = put t (f rest)) :
    Blind put T (modify f : EStateM ε σ PUnit) := by
  rintro s s' ⟨t,t',rest,related,rfl,rfl⟩
  exact ⟨rfl,t,t',f rest,related,commutes t rest,commutes t' rest⟩

theorem modifyGet {f : σ → α × σ} (commutes : ∀ t rest, f (put t rest) = ((f rest).1,put t (f rest).2)) :
    Blind put T (modifyGet f : EStateM ε σ α) := by
  refine Related.modifyGet f f (fun t t' rest related => ?_)
  rw [commutes,commutes]
  exact ⟨rfl,t,t',(f rest).2,related,rfl,rfl⟩

theorem forM {f : α → EStateM ε σ PUnit} (items : List α) (body : ∀ a, Blind put T (f a)) : Blind put T (items.forM f) := by
  induction items with
  | nil => exact pure _
  | cons a rest ih => exact bind (body a) (fun _ => ih)

theorem ite {condition : Prop} [Decidable condition] {p q : EStateM ε σ α} (yes : Blind put T p) (no : Blind put T q) :
    Blind put T (if condition then p else q) := by
  split
  · exact yes
  · exact no

/-- Twins of one kind that are twins of another kind, for some index. -/
theorem of_family {ι κ : Type} {put' : ι → κ → σ → σ} {T' : ι → κ → κ → Prop} {p : EStateM ε σ α}
    (into : ∀ s s', Twin put T s s' → ∃ i, Twin (put' i) (T' i) s s')
    (back : ∀ i s s', Twin (put' i) (T' i) s s' → Twin put T s s') (blind : ∀ i, Blind (put' i) (T' i) p) :
    Blind put T p := by
  intro s s' twin
  obtain ⟨i,twin⟩ := into s s' twin
  have alike := blind i s s' twin
  revert alike
  cases p s with
  | ok a t =>
    cases p s' with
    | ok a' t' => exact fun alike => ⟨alike.1,back i t t' alike.2⟩
    | error e' t' => exact id
  | error e t =>
    cases p s' with
    | ok a' t' => exact id
    | error e' t' => exact fun alike => ⟨alike.1,back i t t' alike.2⟩

end Blind
end ActorKit.Hidden
