import Mathlib.Tactic.Common

/-!
# Programs that panic

Code that mutates one state and may stop with a failure is an `EStateM` program:
a failure leaves the state it happened in. A specification has two parts. The
first holds of every run, whatever the state: the state only grows. The second
holds under a hypothesis on the state a run ends in, normally or not, that is
inherited by every smaller state.
-/

namespace ActorKit.Program
variable {σ ε α β : Type}

/-- A computation that only fails, inside a program. -/
def lift : Except ε α → EStateM ε σ α
  | .ok a => pure a
  | .error e => throw e

theorem bind_ok {x : Except ε α} {f : α → Except ε β} {b : β} (ok : (x >>= f) = .ok b) :
    ∃ a, x = .ok a ∧ f a = .ok b := by
  cases x with
  | ok a => exact ⟨a,rfl,ok⟩
  | error e => cases ok

theorem bind_error {x : Except ε α} {f : α → Except ε β} {e : ε} (failed : (x >>= f) = .error e) :
    x = .error e ∨ ∃ a, x = .ok a ∧ f a = .error e := by
  cases x with
  | ok a => exact .inr ⟨a,rfl,failed⟩
  | error e =>
    cases failed
    exact .inl rfl

theorem bind_run (p : EStateM ε σ α) (k : α → EStateM ε σ β) (s : σ) :
    (p >>= k) s = match p s with
      | .ok a s' => k a s'
      | .error e s' => .error e s' := by
  show EStateM.bind p k s = _
  unfold EStateM.bind
  cases p s <;> rfl

/-- A sequence that ends went through a state in between. -/
theorem bind_ends {p : EStateM ε σ α} {k : α → EStateM ε σ β} {s s'' : σ} {b : β} (ended : (p >>= k) s = .ok b s'') :
    ∃ a s', p s = .ok a s' ∧ k a s' = .ok b s'' := by
  rw [bind_run] at ended
  cases first : p s with
  | ok a s' =>
    rw [first] at ended
    exact ⟨a,s',rfl,ended⟩
  | error e s' =>
    rw [first] at ended
    cases ended

/-- A loop whose turns all succeed. -/
theorem forM_ok {f : α → Except ε PUnit} {items : List α} (each : ∀ a ∈ items, f a = .ok ⟨⟩) : items.forM f = .ok ⟨⟩ := by
  induction items with
  | nil => rfl
  | cons a rest ih =>
    show (f a >>= fun _ => rest.forM f) = _
    rw [each a List.mem_cons_self]
    exact ih (fun b member => each b (List.mem_cons_of_mem _ member))

/-- The state a run ends in. -/
def final (p : EStateM ε σ α) (s : σ) : σ :=
  match p s with
  | .ok _ s' => s'
  | .error _ s' => s'

theorem final_ok {p : EStateM ε σ α} {s s' : σ} {a : α} (ended : p s = .ok a s') : final p s = s' := by
  unfold final
  rw [ended]

theorem final_error {p : EStateM ε σ α} {s s' : σ} {e : ε} (failed : p s = .error e s') : final p s = s' := by
  unfold final
  rw [failed]

theorem final_bind {p : EStateM ε σ α} {k : α → EStateM ε σ β} {s s' : σ} {a : α} (first : p s = .ok a s') :
    final (p >>= k) s = final (k a) s' := by
  unfold final
  rw [bind_run,first]

/-- A program ends where its first part does, when the rest leaves the state alone. -/
theorem final_bind_still {p : EStateM ε σ α} {k : α → EStateM ε σ β} (still : ∀ a s, final (k a) s = s) (s : σ) :
    final (p >>= k) s = final p s := by
  cases result : p s with
  | ok a s' =>
    rw [final_bind result,still]
    unfold final
    rw [result]
  | error e s' =>
    unfold final
    rw [bind_run,result]

/-- What is noted after a program, if it ends. -/
def upon {τ : Type} (p : EStateM ε σ α) (s : σ) (note : α → σ → List τ) : List τ :=
  match p s with
  | .ok a s' => note a s'
  | .error _ _ => []

/-- What is noted of a sequence holds between its first and its last state. -/
theorem upon_rule {τ : Type} {R : σ → List τ → σ → Prop} (trans : ∀ {s s' s'' l l'}, R s l s' → R s' l' s'' → R s (l ++ l') s'')
    {p : EStateM ε σ α} {k : α → EStateM ε σ β} {s : σ} {l : List τ} {note : α → σ → List τ} (first : R s l (final p s))
    (rest : ∀ a s', p s = .ok a s' → R s' (note a s') (final (k a) s')) :
    R s (l ++ upon p s note) (final (p >>= k) s) := by
  unfold upon
  cases result : p s with
  | ok a s' =>
    rw [final_bind result]
    unfold final at first
    rw [result] at first
    exact trans first (rest a s' result)
  | error e s' =>
    unfold final at first ⊢
    rw [result] at first
    rw [bind_run,result,List.append_nil]
    exact first

/-- What is fixed for a group of specifications: how states grow, the hypothesis
    on final states and the failures that are accepted. -/
structure Setting (σ ε : Type) where
  Grows : σ → σ → Prop
  Assumed : σ → Prop
  Accepted : ε → Prop
  refl : ∀ s, Grows s s
  trans : ∀ {s t u}, Grows s t → Grows t u → Grows s u
  inherit : ∀ {s t}, Grows s t → Assumed t → Assumed s

/-- From `P`, the program fails acceptably or ends in `Q`. -/
structure Meets (w : Setting σ ε) (P : σ → Prop) (p : EStateM ε σ α) (Q : α → σ → Prop) : Prop where
  grows : ∀ s, w.Grows s (final p s)
  holds : ∀ s, P s → w.Assumed (final p s) → match p s with
    | .ok a s' => Q a s'
    | .error e _ => w.Accepted e

namespace Meets
variable {w : Setting σ ε} {P P' : σ → Prop} {Q Q' : α → σ → Prop}

theorem weaken {p : EStateM ε σ α} (spec : Meets w P p Q) (pre : ∀ s, P' s → w.Assumed s → P s)
    (post : ∀ a s, Q a s → Q' a s) : Meets w P' p Q' := by
  refine ⟨spec.grows,fun s before assumed => ?_⟩
  have after := spec.holds s (pre s before (w.inherit (spec.grows s) assumed)) assumed
  revert after
  cases p s with
  | ok a s' => exact post a s'
  | error e s' => exact id

theorem pre {p : EStateM ε σ α} (spec : Meets w P p Q) (stronger : ∀ s, P' s → w.Assumed s → P s) : Meets w P' p Q :=
  spec.weaken stronger (fun _ _ after => after)

theorem post {p : EStateM ε σ α} (spec : Meets w P p Q) (weaker : ∀ a s, Q a s → Q' a s) : Meets w P p Q' :=
  spec.weaken (fun _ before _ => before) weaker

theorem pure (a : α) (after : ∀ s, P s → w.Assumed s → Q a s) : Meets w P (pure a) Q :=
  ⟨w.refl,fun s before assumed => after s before assumed⟩

theorem throw (e : ε) (accepted : ∀ s, P s → w.Assumed s → w.Accepted e) : Meets w P (throw e : EStateM ε σ α) Q :=
  ⟨w.refl,fun s before assumed => accepted s before assumed⟩

theorem modifyGet (f : σ → α × σ) (grows : ∀ s, w.Grows s (f s).2)
    (after : ∀ s, P s → w.Assumed (f s).2 → Q (f s).1 (f s).2) : Meets w P (modifyGet f) Q :=
  ⟨grows,fun s before assumed => after s before assumed⟩

theorem modify {Q : PUnit → σ → Prop} (f : σ → σ) (grows : ∀ s, w.Grows s (f s))
    (after : ∀ s, P s → w.Assumed (f s) → Q ⟨⟩ (f s)) : Meets w P (modify f) Q :=
  ⟨grows,fun s before assumed => after s before assumed⟩

theorem bind {p : EStateM ε σ α} {k : α → EStateM ε σ β} {Q : β → σ → Prop} (mid : α → σ → Prop)
    (first : Meets w P p mid) (rest : ∀ a, Meets w (mid a) (k a) Q) : Meets w P (p >>= k) Q := by
  have grows : ∀ s, w.Grows s (final (p >>= k) s) := by
    intro s
    have step := first.grows s
    unfold final at step ⊢
    rw [bind_run]
    cases result : p s with
    | ok a s' =>
      rw [result] at step
      exact w.trans step ((rest a).grows s')
    | error e s' =>
      rw [result] at step
      exact step
  refine ⟨grows,fun s before assumed => ?_⟩
  have step := first.holds s before
  unfold final at step assumed
  rw [bind_run] at assumed ⊢
  cases result : p s with
  | ok a s' =>
    rw [result] at step assumed
    exact (rest a).holds s' (step (w.inherit ((rest a).grows s') assumed)) assumed
  | error e s' =>
    rw [result] at step assumed
    exact step assumed

/-- Reading the state tells which state it is. -/
theorem get_bind {k : σ → EStateM ε σ β} {Q : β → σ → Prop}
    (rest : ∀ s₀, Meets w (fun s => s = s₀ ∧ P s) (k s₀) Q) : Meets w P (get >>= k) Q :=
  bind (fun a s => s = a ∧ P s) ⟨w.refl,fun _ before _ => ⟨rfl,before⟩⟩ rest

/-- A specification may be proved for each state on its own. -/
theorem at_state {p : EStateM ε σ α} (each : ∀ s₀, Meets w (fun s => s = s₀ ∧ P s) p Q) : Meets w P p Q :=
  ⟨fun s => (each s).grows s,fun s before assumed => (each s).holds s ⟨rfl,before⟩ assumed⟩

/-- A failing computation that is known to succeed, or to fail acceptably. -/
theorem lift_bind {x : Except ε α} {k : α → EStateM ε σ β} {Q : β → σ → Prop}
    (fails : ∀ e, x = .error e → ∀ s, P s → w.Assumed s → w.Accepted e)
    (rest : ∀ a, x = .ok a → Meets w P (k a) Q) : Meets w P (lift x >>= k) Q := by
  cases x with
  | ok a => exact rest a rfl
  | error e => exact ⟨w.refl,fun s before assumed => fails e rfl s before assumed⟩

theorem lift {x : Except ε α} (fails : ∀ e, x = .error e → ∀ s, P s → w.Assumed s → w.Accepted e)
    (after : ∀ a, x = .ok a → ∀ s, P s → w.Assumed s → Q a s) : Meets w P (lift x) Q := by
  cases x with
  | ok a => exact .pure a (after a rfl)
  | error e => exact .throw e (fails e rfl)

/-- A fact that is not about the state is still there afterwards. -/
theorem keep {p : EStateM ε σ α} (spec : Meets w P p Q) (fact : Prop) :
    Meets w (fun s => P s ∧ fact) p (fun a s => Q a s ∧ fact) := by
  refine ⟨spec.grows,fun s before assumed => ?_⟩
  have after := spec.holds s before.1 assumed
  revert after
  cases p s with
  | ok a s' => exact fun after => ⟨after,before.2⟩
  | error e s' => exact id

/-- Code that is never reached still grows. -/
theorem unreached {p : EStateM ε σ α} (grows : ∀ s, w.Grows s (final p s)) (never : ∀ s, P s → False) : Meets w P p Q :=
  ⟨grows,fun s before _ => (never s before).elim⟩

/-- What a run that ended tells. -/
theorem ended {p : EStateM ε σ α} (spec : Meets w P p Q) {s s' : σ} {a : α} (run : p s = .ok a s') :
    w.Grows s s' ∧ (P s → w.Assumed s' → Q a s') := by
  have grows := spec.grows s
  have holds := spec.holds s
  unfold final at grows holds
  rw [run] at grows holds
  exact ⟨grows,holds⟩

/-- A loop over a list keeps what is stated of the elements still to come. -/
theorem forM {f : α → EStateM ε σ PUnit} (left : List α → σ → Prop)
    (body : ∀ a rest, Meets w (left (a :: rest)) (f a) (fun _ => left rest)) (items : List α) :
    Meets w (left items) (items.forM f) (fun _ => left []) := by
  induction items with
  | nil => exact .pure _ (fun s before _ => before)
  | cons a rest ih => exact bind (fun _ => left rest) (body a rest) (fun _ => ih)

end Meets

/-! ## Partial correctness -/

/-- Nothing is assumed of the final state, and every failure is accepted. -/
def anyhow : Setting σ ε where
  Grows _ _ := True
  Assumed _ := True
  Accepted _ := True
  refl _ := trivial
  trans _ _ := trivial
  inherit _ _ := trivial

/-- From `P`, the program fails or ends in `Q`. -/
abbrev Ensures (P : σ → Prop) (p : EStateM ε σ α) (Q : α → σ → Prop) : Prop := Meets anyhow P p Q

namespace Ensures
variable {P : σ → Prop}

theorem weaken {P' : σ → Prop} {p : EStateM ε σ α} {Q Q' : α → σ → Prop} (spec : Ensures P p Q) (pre : ∀ s, P' s → P s)
    (post : ∀ a s, Q a s → Q' a s) : Ensures P' p Q' := Meets.weaken spec (fun s before _ => pre s before) post

theorem pure {Q : α → σ → Prop} (a : α) (after : ∀ s, P s → Q a s) : Ensures P (pure a : EStateM ε σ α) Q :=
  Meets.pure a (fun s before _ => after s before)

theorem throw {Q : α → σ → Prop} (e : ε) : Ensures P (throw e : EStateM ε σ α) Q := Meets.throw e (fun _ _ _ => trivial)

theorem modify {Q : PUnit → σ → Prop} {f : σ → σ} (after : ∀ s, P s → Q ⟨⟩ (f s)) :
    Ensures P (modify f : EStateM ε σ PUnit) Q := Meets.modify f (fun _ => trivial) (fun s before _ => after s before)

theorem modifyGet {Q : α → σ → Prop} {f : σ → α × σ} (after : ∀ s, P s → Q (f s).1 (f s).2) :
    Ensures P (modifyGet f : EStateM ε σ α) Q := Meets.modifyGet f (fun _ => trivial) (fun s before _ => after s before)

theorem lift {Q : α → σ → Prop} {x : Except ε α} (after : ∀ a, x = .ok a → ∀ s, P s → Q a s) :
    Ensures P (lift x : EStateM ε σ α) Q :=
  Meets.lift (fun _ _ _ _ _ => trivial) (fun a ok s before _ => after a ok s before)

theorem lift_bind {x : Except ε α} {k : α → EStateM ε σ β} {Q : β → σ → Prop}
    (rest : ∀ a, x = .ok a → Ensures P (k a) Q) : Ensures P (Program.lift x >>= k) Q :=
  Meets.lift_bind (fun _ _ _ _ _ => trivial) rest

theorem bind {p : EStateM ε σ α} {k : α → EStateM ε σ β} {Q : β → σ → Prop} (mid : α → σ → Prop)
    (first : Ensures P p mid) (rest : ∀ a, Ensures (mid a) (k a) Q) : Ensures P (p >>= k) Q :=
  Meets.bind mid first rest

/-- What holds of the state that was read is a fact. -/
theorem get_bind {k : σ → EStateM ε σ β} {Q : β → σ → Prop} (rest : ∀ s₀, P s₀ → Ensures (fun s => s = s₀) (k s₀) Q) :
    Ensures P (get >>= k) Q :=
  ⟨fun _ => trivial,fun s before _ => (rest s before).holds s rfl trivial⟩

/-- Every state that the program may start in is a known one. -/
theorem at_state {p : EStateM ε σ α} {Q : α → σ → Prop} (each : ∀ s₀, P s₀ → Ensures (fun s => s = s₀) p Q) : Ensures P p Q :=
  ⟨fun _ => trivial,fun s before _ => (each s before).holds s rfl trivial⟩

end Ensures

/-! ## What a program leaves alone -/

/-- The program does not change what `view` shows of the state. -/
def Keeps {τ : Type} (view : σ → τ) (p : EStateM ε σ α) : Prop :=
  ∀ t, Ensures (fun s => view s = t) p (fun _ s => view s = t)

namespace Keeps
variable {τ : Type} {view : σ → τ}

theorem pure (a : α) : Keeps view (pure a : EStateM ε σ α) := fun _ => .pure a (fun _ same => same)

theorem lift (x : Except ε α) : Keeps view (lift x : EStateM ε σ α) := fun _ => .lift (fun _ _ _ same => same)

theorem bind {p : EStateM ε σ α} {k : α → EStateM ε σ β} (first : Keeps view p) (rest : ∀ a, Keeps view (k a)) :
    Keeps view (p >>= k) := fun t => .bind _ (first t) (fun a => rest a t)

theorem lift_bind {x : Except ε α} {k : α → EStateM ε σ β} (rest : ∀ a, Keeps view (k a)) :
    Keeps view (Program.lift x >>= k) := bind (lift x) rest

theorem get_bind {k : σ → EStateM ε σ β} (rest : ∀ s, Keeps view (k s)) : Keeps view (get >>= k) :=
  fun t => .get_bind (fun s same => (rest s t).weaken (fun _ here => here ▸ same) (fun _ _ after => after))

theorem modify {f : σ → σ} (same : ∀ s, view (f s) = view s) : Keeps view (modify f : EStateM ε σ PUnit) :=
  fun _ => .modify (fun s before => (same s).trans before)

theorem forM {f : α → EStateM ε σ PUnit} (items : List α) (body : ∀ a, Keeps view (f a)) : Keeps view (items.forM f) := by
  induction items with
  | nil => exact pure _
  | cons a rest ih => exact bind (body a) (fun _ => ih)

theorem ite {condition : Prop} [Decidable condition] {p q : EStateM ε σ α} (yes : Keeps view p) (no : Keeps view q) :
    Keeps view (if condition then p else q) := by
  split
  · exact yes
  · exact no

end Keeps
end ActorKit.Program
