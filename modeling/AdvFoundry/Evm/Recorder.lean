import AdvFoundry.Evm.Machine

/-!
# Runs with a record

Many statements about a run are about what happened in it, which the storage
does not keep. A `Recorder` keeps a record `η` beside the storage: it writes when
a call hands over control and when a call returns. The record is undone with the
storage: a call that reverts leaves no trace, and a hand-over that is refused
leaves none either.

No function reads the record. `Machine.recorded_run` says that: every run of the
machine is a run of the machine with the record, with the same storage in every
state. So what is proved about records by `Machine.sound_run` holds of the
history of every run.
-/

namespace AdvFoundry

variable {ε σ q r α ℓ η : Type}

/-- What is written to the record when the call `l`, begun in the storage
`start`, hands over control, and when it returns. -/
structure Recorder (ℓ σ q η : Type) where
  onQuery : (l : ℓ) → (start : σ) → q → (handed : σ) → η → η
  onReturn : (l : ℓ) → (start : σ) → (final : σ) → η → η

/-- The outcome of the call `l` with its record. When the query is refused, the
record goes back to what it was before. -/
def Outcome.recorded (R : Recorder ℓ σ q η) (l : ℓ) (start : σ) :
    Outcome ε σ q r α → η → Outcome ε (σ × η) q r α
  | reverted e, _ => reverted e
  | returned a s, h => returned a (s, R.onReturn l start s h)
  | waiting query s resume, h =>
    waiting query (s, R.onQuery l start query s h) fun a p =>
      (resume a p.1).recorded R l start (match a with
        | some _ => p.2
        | none => h)

namespace Machine

variable (exec : ℓ → Proc ε σ q r Unit) (R : Recorder ℓ σ q η)

/-- A call that keeps the record. -/
def recordedExec (l : ℓ) : Proc ε (σ × η) q r Unit := fun p =>
  (exec l p.1).recorded R l p.1 p.2

/-- `g` is the waiting call `f` with its record. -/
structure FrameRecords (f : Frame ε σ q r) (g : Frame ε (σ × η) q r) : Prop where
  start : g.start.1 = f.start
  handed : g.handed.1 = f.handed
  query : g.query = f.query
  resume : ∃ l start h, g.resume = fun a p =>
    (f.resume a p.1).recorded R l start (match a with
      | some _ => p.2
      | none => h)

/-- `m'` is the machine `m` with its record. -/
structure Records (m : Machine ε σ q r) (m' : Machine ε (σ × η) q r) : Prop where
  world : m'.world.1 = m.world
  stack : List.Forall₂ (FrameRecords R) m.stack m'.stack

variable {exec R} {m n : Machine ε σ q r} {m' : Machine ε (σ × η) q r} {ev : Event ℓ r}

theorem records_settle (start : σ × η) {stack : List (Frame ε σ q r)}
    {stack' : List (Frame ε (σ × η) q r)} (l : ℓ) (s : σ) (h : η) (o : Outcome ε σ q r Unit)
    (hstack : List.Forall₂ (FrameRecords R) stack stack') :
    Records R (settle start.1 stack o) (settle start stack' (o.recorded R l s h)) := by
  cases o with
  | reverted e => exact ⟨rfl, hstack⟩
  | returned a s' => exact ⟨rfl, hstack⟩
  | waiting query s' resume =>
    exact ⟨rfl, .cons ⟨rfl, rfl, rfl, l, s, h, rfl⟩ hstack⟩

/-- The record does not keep the machine from any step. -/
theorem recorded_next (hm : Records R m m') (h : Step exec m ev n) :
    ∃ n', Step (recordedExec exec R) m' ev n' ∧ Records R n n' := by
  obtain ⟨world, stack⟩ := m
  obtain ⟨⟨world', record⟩, stack'⟩ := m'
  obtain ⟨hworld, hstack⟩ := hm
  cases hworld
  cases ev with
  | call l =>
    cases h
    exact ⟨_, rfl, records_settle (world, record) l world record (exec l world) hstack⟩
  | answer a =>
    cases hstack with
    | nil => cases h
    | @cons f g rest rest' hf hrest =>
      cases h
      obtain ⟨hstart, -, -, l, s, h, hresume⟩ := hf
      refine ⟨_, rfl, ?_⟩
      rw [← hstart, hresume]
      exact records_settle g.start l s _ (f.resume (some a) world) hrest
  | fail =>
    cases hstack with
    | nil => cases h
    | @cons f g rest rest' hf hrest =>
      cases h
      obtain ⟨hstart, hhanded, -, l, s, h, hresume⟩ := hf
      refine ⟨_, rfl, ?_⟩
      rw [← hstart, ← hhanded, hresume]
      exact records_settle g.start l s _ (f.resume none g.handed.1) hrest

/-- A run whose steps are some of the machine's has its record, with what each of
these steps keeps. -/
theorem recorded_run_of {step : Machine ε σ q r → Event ℓ r → Machine ε σ q r → Prop}
    {J : Machine ε (σ × η) q r → Prop} {events : List (Event ℓ r)}
    (hsub : ∀ m ev n, step m ev n → Step exec m ev n)
    (hJ : ∀ m m' ev n n', step m ev n → Records R m m' → Step (recordedExec exec R) m' ev n' →
      J m' → J n')
    (hrun : Run step m events n) (hm : Records R m m') (h : J m') :
    ∃ n', Run (Step (recordedExec exec R)) m' events n' ∧ Records R n n' ∧ J n' := by
  induction hrun with
  | nil => exact ⟨m', .nil m', hm, h⟩
  | snoc _ hstep ih =>
    obtain ⟨n₁, hrun₁, hn₁, hJ₁⟩ := ih
    obtain ⟨n₂, hstep₂, hn₂⟩ := recorded_next hn₁ (hsub _ _ _ hstep)
    exact ⟨n₂, .snoc hrun₁ hstep₂, hn₂, hJ _ _ _ _ _ hstep hn₁ hstep₂ hJ₁⟩

/-- Every run has its record. -/
theorem recorded_run {events : List (Event ℓ r)} (hrun : Run (Step exec) m events n)
    (hm : Records R m m') :
    ∃ n', Run (Step (recordedExec exec R)) m' events n' ∧ Records R n n' := by
  obtain ⟨n', hrun', hn', -⟩ := recorded_run_of (J := fun _ => True) (fun _ _ _ h => h)
    (fun _ _ _ _ _ _ _ _ _ => trivial) hrun hm trivial
  exact ⟨n', hrun', hn'⟩

end Machine

/-! ## The rules for the parts that keep control -/

section Relies

variable {R : Recorder ℓ σ q η} {I : σ × η → Prop} {G : σ × η → σ × η → Prop} {l : ℓ} {s start : σ}
  {h : η}

/-- The rest of a function after a part that keeps control. -/
theorem Outcome.relies_recorded_tx {x : Tx ε σ α} {f : α → Proc ε σ q r Unit}
    {Q : Unit → σ × η → Prop}
    (hok : ∀ a s', x s = .ok (a, s') → ((f a s').recorded R l start h).Relies I G Q) :
    (((Proc.tx x >>= f : Proc ε σ q r Unit) s).recorded R l start h).Relies I G Q := by
  cases hx : x s with
  | ok p =>
    rw [Proc.tx_bind_ok hx]
    exact hok p.1 p.2 hx
  | error e =>
    rw [Proc.tx_bind_error hx]
    trivial

/-- A last part that keeps control. -/
theorem Outcome.relies_recorded_return {x : Tx ε σ Unit} {Q : Unit → σ × η → Prop}
    (hok : ∀ s', x s = .ok ((), s') → Q () (s', R.onReturn l start s' h)) :
    (((Proc.tx x : Proc ε σ q r Unit) s).recorded R l start h).Relies I G Q := by
  unfold Proc.tx
  cases hx : x s with
  | ok p => exact hok p.2 hx
  | error e => trivial

/-- The rest of a function after it handed over control. A refusal takes back what
was recorded of it. -/
theorem Outcome.relies_recorded_call {query : q} {f : Option r → Proc ε σ q r Unit}
    {Q : Unit → σ × η → Prop} (hI : I (s, R.onQuery l start query s h))
    (hsome : ∀ a s' h', I (s', h') → G (s, R.onQuery l start query s h) (s', h') →
      ((f (some a) s').recorded R l start h').Relies I G Q)
    (hnone : ∀ s' h', I (s', h') → G (s, R.onQuery l start query s h) (s', h') →
      ((f none s').recorded R l start h).Relies I G Q) :
    (((Proc.call query >>= f : Proc ε σ q r Unit) s).recorded R l start h).Relies I G Q := by
  refine ⟨hI, fun a p hp hG => ?_⟩
  cases a with
  | some a => exact hsome a p.1 p.2 hp hG
  | none => exact hnone p.1 p.2 hp hG

end Relies

theorem Outcome.safe_recorded_tx {R : Recorder ℓ σ q η} {I : σ × η → Prop} {A : Option r → Prop}
    {E : Revert ε → Prop} {x : Tx ε σ Unit} {l : ℓ} {s start : σ} {h : η}
    (hok : ∀ s', x s = .ok ((), s') → I (s', R.onReturn l start s' h)) (herr : ∀ e, E e) :
    (((Proc.tx x : Proc ε σ q r Unit) s).recorded R l start h).Safe I A E fun _ => I := by
  unfold Proc.tx
  cases hx : x s with
  | ok p => exact hok p.2 hx
  | error e => exact herr e

end AdvFoundry
