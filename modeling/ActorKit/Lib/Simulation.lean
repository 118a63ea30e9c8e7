import ActorKit.Lib.Transition

/-!
# Simulation

Two systems whose steps show events. One simulates the other when it can answer
every step with steps of its own, none or several, that show the same events; it
then shows what whole runs of the other show.
-/

namespace ActorKit.Simulation
open ActorKit.Transition
variable {σ τ α β ε : Type}

/-- A system, the steps it may take, and the events that a step shows. -/
structure Shown (σ α ε : Type) where
  step : σ → α → Option σ
  ok : σ → α → Prop
  shows : σ → α → List ε

/-- The runs from `s` with the events they show. -/
inductive Shown.Runs (S : Shown σ α ε) (s : σ) : List ε → σ → Prop where
  | start : S.Runs s [] s
  | next {events : List ε} {s' s'' : σ} {a : α} (before : S.Runs s events s') (allowed : S.ok s' a)
      (stepped : S.step s' a = some s'') : S.Runs s (events ++ S.shows s' a) s''

variable {S : Shown σ α ε} {T : Shown τ β ε}

theorem Shown.Runs.one {s s' : σ} {a : α} (allowed : S.ok s a) (stepped : S.step s a = some s') :
    S.Runs s (S.shows s a) s' := .next .start allowed stepped

theorem Shown.Runs.append {s s' s'' : σ} {first second : List ε} (runs : S.Runs s first s') (more : S.Runs s' second s'') :
    S.Runs s (first ++ second) s'' := by
  induction more with
  | start => rwa [List.append_nil]
  | next _ allowed stepped ih =>
    rw [← List.append_assoc]
    exact .next ih allowed stepped

theorem Shown.Runs.reach {s s' : σ} {events : List ε} (runs : S.Runs s events s') : Reach S.step S.ok s s' := by
  induction runs with
  | start => exact .start
  | next _ allowed stepped ih => exact .next ih allowed stepped

theorem runs_of_reach {s s' : σ} (reached : Reach S.step S.ok s s') : ∃ events, S.Runs s events s' := by
  induction reached with
  | start => exact ⟨[],.start⟩
  | next _ allowed stepped ih =>
    obtain ⟨events,runs⟩ := ih
    exact ⟨_,.next runs allowed stepped⟩

/-- The events of a list of labels, and the state after it. -/
def Shown.trace (S : Shown σ α ε) (s : σ) : List α → Option (List ε × σ)
  | [] => some ([],s)
  | a :: rest => (S.step s a).bind (fun s' => (S.trace s' rest).map (fun later => (S.shows s a ++ later.1,later.2)))

theorem trace_runs {labels : List α} {s s' : σ} {events : List ε} (allowed : ∀ a ∈ labels, ∀ s, S.ok s a)
    (traced : S.trace s labels = some (events,s')) : S.Runs s events s' := by
  induction labels generalizing s events with
  | nil => cases traced; exact .start
  | cons a labels ih =>
    obtain ⟨next,stepped,rest⟩ := Option.bind_eq_some_iff.mp traced
    obtain ⟨⟨later,last⟩,traced',same⟩ := Option.map_eq_some_iff.mp rest
    cases same
    have after := ih (fun b member => allowed b (List.mem_cons_of_mem _ member)) traced'
    exact (Shown.Runs.one (allowed a List.mem_cons_self s) stepped).append after

/-- `T` answers every step of `S` between related states. -/
def Simulates (S : Shown σ α ε) (T : Shown τ β ε) (Related : σ → τ → Prop) : Prop :=
  ∀ s t a s', Related s t → S.ok s a → S.step s a = some s' → ∃ t', T.Runs t (S.shows s a) t' ∧ Related s' t'

theorem Simulates.runs {Related : σ → τ → Prop} (simulates : Simulates S T Related) {s s' : σ} {t : τ} {events : List ε}
    (related : Related s t) (runs : S.Runs s events s') : ∃ t', T.Runs t events t' ∧ Related s' t' := by
  induction runs with
  | start => exact ⟨t,.start,related⟩
  | next _ allowed stepped ih =>
    obtain ⟨t',answered,related'⟩ := ih
    obtain ⟨t'',answer,related''⟩ := simulates _ _ _ _ related' allowed stepped
    exact ⟨t'',answered.append answer,related''⟩

/-- Two systems that simulate each other show the same events on the way to what
    related states have in common. -/
theorem same_runs {ω : Type} {Forth Back : σ → τ → Prop} {view : σ → ω} {view' : τ → ω} (forth : Simulates S T Forth)
    (back : Simulates T S (fun t s => Back s t)) (agree : ∀ s t, Forth s t ∨ Back s t → view s = view' t) {s : σ} {t : τ}
    (starts : Forth s t) (starts' : Back s t) (events : List ε) (seen : ω) :
    (∃ s', S.Runs s events s' ∧ view s' = seen) ↔ ∃ t', T.Runs t events t' ∧ view' t' = seen := by
  constructor
  · rintro ⟨s',runs,rfl⟩
    obtain ⟨t',answered,related⟩ := forth.runs starts runs
    exact ⟨t',answered,(agree s' t' (.inl related)).symm⟩
  · rintro ⟨t',runs,rfl⟩
    obtain ⟨s',answered,related⟩ := back.runs starts' runs
    exact ⟨s',answered,agree s' t' (.inr related)⟩

end ActorKit.Simulation
