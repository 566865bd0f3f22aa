import AdvFoundry.Evm.Run

/-!
# Calls that hand over control

A contract that pays an account, or calls a contract it does not know, hands
over control: before the other side answers, it may call any contract, the
waiting one included. `Proc` is a contract function that may do so. It runs to
an `Outcome`: a revert, a result, or a query to another account together with
the rest of the function, which goes on from the answer and from whatever the
storage is by then. The answer `none` is a callee that reverted.

`Machine` runs such functions against an environment that does what it likes:
the storage, and the stack of the calls that wait for an answer. An `Event` is
a new call, at any depth, an answer to the innermost waiting call, or its
callee's revert, which takes back everything done since the query. A call that
reverts takes back everything done since it began.

`Outcome.Safe` is the rule of the proofs: a property `I` of the storage holds
whenever a function hands over control, and the function relies on nothing but
`I` when it goes on. `Machine.sound_run`: then `I` holds in every state of every
run, those in the middle of a call included. `Outcome.Relies` is the rule for
functions that rely on more: on what the calls they wait for may have changed.

`Lockstep` compares a function with its counterpart in another system: both
return or neither does, and what they leave is related.
-/

namespace AdvFoundry

variable {ε σ q r α β ℓ : Type}

/-- How far a call got. -/
inductive Outcome (ε σ q r α : Type)
  | reverted (e : Revert ε)
  | returned (a : α) (s : σ)
  | waiting (query : q) (s : σ) (resume : Option r → σ → Outcome ε σ q r α)

namespace Outcome

def bind : Outcome ε σ q r α → (α → σ → Outcome ε σ q r β) → Outcome ε σ q r β
  | reverted e, _ => reverted e
  | returned a s, f => f a s
  | waiting query s resume, f => waiting query s fun a s' => (resume a s').bind f

theorem bind_pure (o : Outcome ε σ q r α) : o.bind returned = o := by
  induction o with
  | reverted e => rfl
  | returned a s => rfl
  | waiting query s resume ih => exact congrArg _ (funext fun a => funext fun s' => ih a s')

theorem bind_assoc {γ : Type} (o : Outcome ε σ q r α) (f : α → σ → Outcome ε σ q r β)
    (g : β → σ → Outcome ε σ q r γ) : (o.bind f).bind g = o.bind fun a s => (f a s).bind g := by
  induction o with
  | reverted e => rfl
  | returned a s => rfl
  | waiting query s resume ih => exact congrArg _ (funext fun a => funext fun s' => ih a s')

/-- The outcome of a low-level call: a revert is caught, takes everything back to
`back`, and shows as `false`. -/
def attempt (back : σ) : Outcome ε σ q r α → Outcome ε σ q r Bool
  | reverted _ => returned false back
  | returned _ s => returned true s
  | waiting query s resume => waiting query s fun a s' => (resume a s').attempt back

/-- Whether the call returned, and the storage after it; nothing while it waits. -/
def settled (start : σ) : Outcome ε σ q r α → Option (Bool × σ)
  | reverted _ => some (false, start)
  | returned _ s => some (true, s)
  | waiting _ _ _ => none

/-- `I` holds whenever control is handed over, and from any allowed answer in
any storage with `I` the rest goes on so; the results satisfy `Q` and the
reverts `E`. -/
def Safe (I : σ → Prop) (A : Option r → Prop) (E : Revert ε → Prop) (Q : α → σ → Prop) :
    Outcome ε σ q r α → Prop
  | reverted e => E e
  | returned a s => Q a s
  | waiting _ s resume => I s ∧ ∀ a s', A a → I s' → (resume a s').Safe I A E Q

/-- As `Safe`, for a function that relies on more when it goes on: between
handing over `s` and going on from `s'`, what other calls did is in `G s s'`. -/
def Relies (I : σ → Prop) (G : σ → σ → Prop) (Q : α → σ → Prop) : Outcome ε σ q r α → Prop
  | reverted _ => True
  | returned a s => Q a s
  | waiting _ s resume => I s ∧ ∀ a s', I s' → G s s' → (resume a s').Relies I G Q

end Outcome

/-- A contract function that may hand over control. -/
def Proc (ε σ q r α : Type) : Type := σ → Outcome ε σ q r α

namespace Proc

instance : Monad (Proc ε σ q r) where
  pure a := fun s => .returned a s
  bind x f := fun s => (x s).bind f

theorem bind_assoc {γ : Type} (x : Proc ε σ q r α) (f : α → Proc ε σ q r β)
    (g : β → Proc ε σ q r γ) : (x >>= f) >>= g = x >>= fun a => f a >>= g :=
  funext fun s => Outcome.bind_assoc (x s) f g

/-- A part of the function that keeps control. -/
def tx (x : Tx ε σ α) : Proc ε σ q r α := fun s =>
  match x s with
  | .ok (a, s') => .returned a s'
  | .error e => .reverted e

/-- The rest of a function after a part that returns. -/
theorem tx_bind_ok {x : Tx ε σ α} {f : α → Proc ε σ q r β} {s s' : σ} {a : α}
    (h : x s = .ok (a, s')) : ((tx x : Proc ε σ q r α) >>= f) s = f a s' := by
  show ((tx x : Proc ε σ q r α) s).bind f = f a s'
  rw [tx, h]
  rfl

theorem tx_bind_error {x : Tx ε σ α} {f : α → Proc ε σ q r β} {s : σ} {e : Revert ε}
    (h : x s = .error e) : ((tx x : Proc ε σ q r α) >>= f) s = .reverted e := by
  show ((tx x : Proc ε σ q r α) s).bind f = .reverted e
  rw [tx, h]
  rfl

@[simp] theorem tx_returned {x : Tx ε σ α} {s s' : σ} {a : α} :
    (tx x : Proc ε σ q r α) s = .returned a s' ↔ x s = .ok (a, s') := by
  unfold tx
  cases h : x s with
  | ok p => simp [Prod.ext_iff]
  | error e => simp

@[simp] theorem pure_returned {s s' : σ} {a b : α} :
    (pure a : Proc ε σ q r α) s = .returned b s' ↔ b = a ∧ s' = s := by
  show Outcome.returned a s = .returned b s' ↔ _
  simp [eq_comm]

/-- A function returns when both of its parts do; a part that waits has not. -/
@[simp] theorem bind_returned {x : Proc ε σ q r α} {f : α → Proc ε σ q r β} {s s' : σ} {b : β} :
    (x >>= f) s = .returned b s' ↔
      ∃ a s₁, x s = .returned a s₁ ∧ f a s₁ = .returned b s' := by
  show (x s).bind f = .returned b s' ↔ _
  cases h : x s with
  | reverted e => simp [Outcome.bind]
  | returned a s₁ => simp [Outcome.bind]
  | waiting query s₁ resume => simp [Outcome.bind]

/-- A low-level call of another function, whether it succeeds or not. -/
def attempt (x : Proc ε σ q r α) : Proc ε σ q r Bool := fun s => (x s).attempt s

/-- Hands over control and waits for the answer. -/
def call (query : q) : Proc ε σ q r (Option r) := fun s => .waiting query s .returned

end Proc

/-! ## The rule for each construct -/

section Rules

variable {I : σ → Prop} {A : Option r → Prop} {E : Revert ε → Prop} {s : σ}

theorem Outcome.safe_bind {Q : β → σ → Prop} {P : α → σ → Prop} {o : Outcome ε σ q r α}
    {f : α → σ → Outcome ε σ q r β} (ho : o.Safe I A E P)
    (hf : ∀ a s, P a s → (f a s).Safe I A E Q) : (o.bind f).Safe I A E Q := by
  induction o with
  | reverted e => exact ho
  | returned a s => exact hf a s ho
  | waiting query s resume ih => exact ⟨ho.1, fun a s' ha hs => ih a s' (ho.2 a s' ha hs)⟩

/-- A call for which no storage is fit to hand over keeps control. -/
theorem Outcome.settled_of_safe {Q : α → σ → Prop} {o : Outcome ε σ q r α}
    (ho : o.Safe (fun _ => False) A E Q) :
    (∃ a s', o = .returned a s') ∨ ∃ e, o = .reverted e := by
  cases o with
  | reverted e => exact .inr ⟨e, rfl⟩
  | returned a s' => exact .inl ⟨a, s', rfl⟩
  | waiting query s' resume => exact ho.1.elim

/-- What a call that keeps control returns is all there is to know of it. -/
theorem Outcome.safe_of_settled {P Q : α → σ → Prop} {o : Outcome ε σ q r α}
    (ho : o.Safe (fun _ => False) A E P) (h : ∀ a s', o = .returned a s' → Q a s') :
    o.Safe I A E Q := by
  cases o with
  | reverted e => exact ho
  | returned a s' => exact h a s' rfl
  | waiting query s' resume => exact ho.1.elim

namespace Proc

theorem safe_bind {Q : β → σ → Prop} {x : Proc ε σ q r α} {f : α → Proc ε σ q r β}
    (P : α → σ → Prop) (hx : (x s).Safe I A E P) (hf : ∀ a s, P a s → (f a s).Safe I A E Q) :
    ((x >>= f) s).Safe I A E Q :=
  Outcome.safe_bind hx hf

theorem safe_pure {Q : α → σ → Prop} {a : α} (h : Q a s) :
    ((pure a : Proc ε σ q r α) s).Safe I A E Q := h

theorem safe_tx {Q : α → σ → Prop} {x : Tx ε σ α} (hok : ∀ a s', x s = .ok (a, s') → Q a s')
    (herr : ∀ e, x s = .error e → E e) : ((tx x : Proc ε σ q r α) s).Safe I A E Q := by
  unfold tx
  cases h : x s with
  | ok p => exact hok p.1 p.2 h
  | error e => exact herr e h

/-- The rest of a function that reads the storage. -/
theorem safe_get {Q : α → σ → Prop} {f : σ → Proc ε σ q r α} (h : (f s s).Safe I A E Q) :
    (((tx Tx.get : Proc ε σ q r σ) >>= f) s).Safe I A E Q := h

theorem safe_revertIf {p : Prop} [Decidable p] {e : ε} {Q : Unit → σ → Prop}
    (hrevert : p → E (.error e)) (hpass : ¬ p → Q () s) :
    ((tx (Tx.revertIf p e) : Proc ε σ q r Unit) s).Safe I A E Q := by
  refine safe_tx (fun _ s' h => ?_) fun e' h => ?_
  · obtain ⟨hp, rfl⟩ := Tx.revertIf_ok.mp h
    exact hpass hp
  · obtain ⟨hp, rfl⟩ := Tx.revertIf_error.mp h
    exact hrevert hp

theorem safe_call {Q : Option r → σ → Prop} {query : q} (hs : I s)
    (hQ : ∀ a s', A a → I s' → Q a s') :
    ((call query : Proc ε σ q r (Option r)) s).Safe I A E Q :=
  ⟨hs, hQ⟩

end Proc

end Rules

/-! ## The rules for functions that rely on more -/

section Relying

variable {I : σ → Prop} {G : σ → σ → Prop} {s : σ}

theorem Outcome.relies_bind {Q : β → σ → Prop} {P : α → σ → Prop} {o : Outcome ε σ q r α}
    {f : α → σ → Outcome ε σ q r β} (ho : o.Relies I G P)
    (hf : ∀ a s, P a s → (f a s).Relies I G Q) : (o.bind f).Relies I G Q := by
  induction o with
  | reverted e => trivial
  | returned a s => exact hf a s ho
  | waiting query s resume ih => exact ⟨ho.1, fun a s' hs hG => ih a s' (ho.2 a s' hs hG)⟩

theorem Outcome.relies_mono {P Q : α → σ → Prop} {o : Outcome ε σ q r α} (ho : o.Relies I G P)
    (h : ∀ a s, P a s → Q a s) : o.Relies I G Q := by
  induction o with
  | reverted e => trivial
  | returned a s => exact h a s ho
  | waiting query s resume ih => exact ⟨ho.1, fun a s' hs hG => ih a s' (ho.2 a s' hs hG)⟩

theorem Outcome.relies_of_settled {A : Option r → Prop} {E : Revert ε → Prop}
    {P Q : α → σ → Prop} {o : Outcome ε σ q r α} (ho : o.Safe (fun _ => False) A E P)
    (h : ∀ a s', o = .returned a s' → Q a s') : o.Relies I G Q := by
  cases o with
  | reverted e => trivial
  | returned a s' => exact h a s' rfl
  | waiting query s' resume => exact ho.1.elim

/-- A low-level call goes on whether or not the callee reverted. -/
theorem Outcome.relies_attempt {P : α → σ → Prop} {Q : Bool → σ → Prop} {o : Outcome ε σ q r α}
    {back : σ} (ho : o.Relies I G P) (htrue : ∀ a s, P a s → Q true s) (hfalse : Q false back) :
    (o.attempt back).Relies I G Q := by
  induction o with
  | reverted e => exact hfalse
  | returned a s => exact htrue a s ho
  | waiting query s resume ih => exact ⟨ho.1, fun a s' hs hG => ih a s' (ho.2 a s' hs hG)⟩

namespace Proc

theorem relies_bind {Q : β → σ → Prop} {x : Proc ε σ q r α} {f : α → Proc ε σ q r β}
    (P : α → σ → Prop) (hx : (x s).Relies I G P) (hf : ∀ a s, P a s → (f a s).Relies I G Q) :
    ((x >>= f) s).Relies I G Q :=
  Outcome.relies_bind hx hf

theorem relies_tx {Q : α → σ → Prop} {x : Tx ε σ α} (hok : ∀ a s', x s = .ok (a, s') → Q a s') :
    ((tx x : Proc ε σ q r α) s).Relies I G Q := by
  unfold tx
  cases h : x s with
  | ok p => exact hok p.1 p.2 h
  | error e => trivial

/-- The rest of a function after a part that keeps control. -/
theorem relies_tx_bind {Q : β → σ → Prop} {x : Tx ε σ α} {f : α → Proc ε σ q r β}
    (hok : ∀ a s', x s = .ok (a, s') → (f a s').Relies I G Q) :
    (((tx x : Proc ε σ q r α) >>= f) s).Relies I G Q :=
  relies_bind _ (relies_tx hok) fun _ _ h => h

end Proc

end Relying

/-! ## Side by side -/

section Lockstep

variable {δ τ : Type} {R : σ → τ → Prop}

/-- The results of a function of one system and of its counterpart in another:
one returns exactly when the other does, and the storages are related. -/
structure Lockstep (R : σ → τ → Prop) (x : Except (Revert ε) (Unit × σ))
    (o : Outcome δ τ q r Unit) : Prop where
  forth : ∀ s, x = .ok ((), s) → ∃ t, o = .returned () t ∧ R s t
  back : ∀ t, o = .returned () t → ∃ s, x = .ok ((), s) ∧ R s t

/-- Two functions of which it is known when they return and with what. -/
theorem Lockstep.of_iff {x : Except (Revert ε) (Unit × σ)} {o : Outcome δ τ q r Unit}
    {C C' H H' : Prop} {s : H → σ} {t : H' → τ}
    (hx : ∀ s', x = .ok ((), s') ↔ C ∧ ∃ h, s' = s h)
    (ho : ∀ t', o = .returned () t' ↔ C' ∧ ∃ h, t' = t h) (hC : C ↔ C') (hH : H ↔ H')
    (hR : ∀ h h', R (s h) (t h')) : Lockstep R x o where
  forth := by
    intro s' hs'
    obtain ⟨hc, h, rfl⟩ := (hx s').mp hs'
    exact ⟨t (hH.mp h), (ho _).mpr ⟨hC.mp hc, hH.mp h, rfl⟩, hR _ _⟩
  back := by
    intro t' ht'
    obtain ⟨hc, h, rfl⟩ := (ho t').mp ht'
    exact ⟨s (hH.mpr h), (hx _).mpr ⟨hC.mpr hc, hH.mpr h, rfl⟩, hR _ _⟩

section Rules

variable {x y : Except (Revert ε) (Unit × σ)} {o o' : Outcome δ τ q r Unit}

/-- A part and the rest from where it ends. -/
theorem Lockstep.seq {f : σ → Except (Revert ε) (Unit × σ)} {g : τ → Outcome δ τ q r Unit}
    (hy : ∀ s', y = .ok ((), s') ↔ ∃ s, x = .ok ((), s) ∧ f s = .ok ((), s'))
    (ho' : ∀ t', o' = .returned () t' ↔ ∃ t, o = .returned () t ∧ g t = .returned () t')
    (h : Lockstep R x o) (hf : ∀ s t, R s t → Lockstep R (f s) (g t)) : Lockstep R y o' where
  forth := by
    intro s' hs'
    obtain ⟨s, hs, hrest⟩ := (hy s').mp hs'
    obtain ⟨t, ht, hR⟩ := h.forth s hs
    obtain ⟨t', ht', hR'⟩ := (hf s t hR).forth s' hrest
    exact ⟨t', (ho' t').mpr ⟨t, ht, ht'⟩, hR'⟩
  back := by
    intro t' ht'
    obtain ⟨t, ht, hrest⟩ := (ho' t').mp ht'
    obtain ⟨s, hs, hR⟩ := h.back t ht
    obtain ⟨s', hs', hR'⟩ := (hf s t hR).back t' hrest
    exact ⟨s', (hy s').mpr ⟨s, hs, hs'⟩, hR'⟩

/-- Two functions that return when these do, with the same storage. -/
theorem Lockstep.congr (hy : ∀ s, y = .ok ((), s) ↔ x = .ok ((), s))
    (ho' : ∀ t, o' = .returned () t ↔ o = .returned () t) (h : Lockstep R x o) :
    Lockstep R y o' where
  forth := by
    intro s hs
    obtain ⟨t, ht, hR⟩ := h.forth s ((hy s).mp hs)
    exact ⟨t, (ho' t).mpr ht, hR⟩
  back := by
    intro t ht
    obtain ⟨s, hs, hR⟩ := h.back t ((ho' t).mp ht)
    exact ⟨s, (hy s).mpr hs, hR⟩

/-- A check of the storage at the end. -/
theorem Lockstep.check (K : σ → Prop) (K' : τ → Prop)
    (hy : ∀ s, y = .ok ((), s) ↔ x = .ok ((), s) ∧ K s)
    (ho' : ∀ t, o' = .returned () t ↔ o = .returned () t ∧ K' t)
    (h : Lockstep R x o) (hK : ∀ s t, R s t → (K s ↔ K' t)) : Lockstep R y o' where
  forth := by
    intro s hs
    obtain ⟨hx, hk⟩ := (hy s).mp hs
    obtain ⟨t, ht, hR⟩ := h.forth s hx
    exact ⟨t, (ho' t).mpr ⟨ht, (hK s t hR).mp hk⟩, hR⟩
  back := by
    intro t ht
    obtain ⟨ho, hk⟩ := (ho' t).mp ht
    obtain ⟨s, hs, hR⟩ := h.back t ho
    exact ⟨s, (hy s).mpr ⟨hs, (hK s t hR).mpr hk⟩, hR⟩

end Rules

/-- Two calls side by side, when the second keeps control: both return or both
revert, and the storages stay related. -/
theorem Lockstep.settled {A : Option r → Prop} {E : Revert δ → Prop} {Q : Unit → τ → Prop}
    {x : Tx ε σ Unit} {s : σ} {t : τ} {o : Outcome δ τ q r Unit} (h : Lockstep R (x s) o)
    (ho : o.Safe (fun _ => False) A E Q) (hR : R s t) :
    ∃ t', o.settled t = some (x.succeeds s, t') ∧ R (x.after s) t' := by
  rcases Tx.after_cases x s with hok | ⟨hfail, hsame⟩
  · obtain ⟨t', rfl, hR'⟩ := h.forth _ hok
    rw [(Tx.of_ok hok).1]
    exact ⟨t', rfl, hR'⟩
  · rcases Outcome.settled_of_safe ho with ⟨⟨⟩, t', rfl⟩ | ⟨e, rfl⟩
    · obtain ⟨s', hok, -⟩ := h.back t' rfl
      rw [(Tx.of_ok hok).1] at hfail
      cases hfail
    · rw [hfail, hsame]
      exact ⟨t, rfl, hR⟩

end Lockstep

/-! ## Machines -/

/-- A call that waits: the storage it began with, the storage it handed over,
and the rest of it. -/
structure Frame (ε σ q r : Type) where
  start : σ
  handed : σ
  query : q
  resume : Option r → σ → Outcome ε σ q r Unit

structure Machine (ε σ q r : Type) where
  world : σ
  stack : List (Frame ε σ q r)

/-- What happens next: someone calls, the innermost waiting call is answered, or
the account it waits for reverts. -/
inductive Event (ℓ r : Type)
  | call (l : ℓ)
  | answer (a : r)
  | fail

namespace Machine

variable (exec : ℓ → Proc ε σ q r Unit)

/-- The outcome of an event, with the storage to go back to on a revert and the
calls that go on waiting. -/
def fire (m : Machine ε σ q r) :
    Event ℓ r → Option (σ × List (Frame ε σ q r) × Outcome ε σ q r Unit)
  | .call l => some (m.world, m.stack, exec l m.world)
  | .answer a =>
    match m.stack with
    | [] => none
    | f :: rest => some (f.start, rest, f.resume (some a) m.world)
  | .fail =>
    match m.stack with
    | [] => none
    | f :: rest => some (f.start, rest, f.resume none f.handed)

def settle (start : σ) (stack : List (Frame ε σ q r)) : Outcome ε σ q r Unit → Machine ε σ q r
  | .reverted _ => ⟨start, stack⟩
  | .returned _ s => ⟨s, stack⟩
  | .waiting query s resume => ⟨s, ⟨start, s, query, resume⟩ :: stack⟩

def next (m : Machine ε σ q r) (ev : Event ℓ r) : Option (Machine ε σ q r) :=
  (m.fire exec ev).map fun p => settle p.1 p.2.1 p.2.2

/-- A step of the machine. -/
def Step (m : Machine ε σ q r) (ev : Event ℓ r) (m' : Machine ε σ q r) : Prop :=
  m.next exec ev = some m'

/-- The answer an event gives is one of those allowed. -/
def Allows (A : Option r → Prop) : Event ℓ r → Prop
  | .call _ => True
  | .answer a => A (some a)
  | .fail => A none

/-- `I` holds now, would hold after a revert, and every waiting call goes on
safely. -/
structure Sound (I : σ → Prop) (A : Option r → Prop) (E : Revert ε → Prop)
    (m : Machine ε σ q r) : Prop where
  world : I m.world
  stack : ∀ f ∈ m.stack, I f.start ∧ I f.handed ∧
    ∀ a s, A a → I s → (f.resume a s).Safe I A E fun _ => I

variable {exec} {I : σ → Prop} {A : Option r → Prop} {E : Revert ε → Prop}
  {m m' : Machine ε σ q r} {ev : Event ℓ r}

/-- Whatever happens next, it happens safely. -/
theorem sound_fire {start : σ} {stack : List (Frame ε σ q r)} {o : Outcome ε σ q r Unit}
    (hexec : ∀ l, ev = .call l → (exec l m.world).Safe I A E fun _ => I) (hm : m.Sound I A E)
    (hev : Allows A ev) (h : m.fire exec ev = some (start, stack, o)) :
    o.Safe I A E (fun _ => I) ∧ Sound I A E ⟨start, stack⟩ := by
  cases ev with
  | call l =>
    cases h
    exact ⟨hexec l rfl, hm⟩
  | answer a =>
    obtain ⟨world, stack'⟩ := m
    cases stack' with
    | nil => cases h
    | cons f rest =>
      cases h
      obtain ⟨hstart, -, hresume⟩ := hm.stack f List.mem_cons_self
      exact ⟨hresume _ _ hev hm.world, hstart, fun g hg => hm.stack g (List.mem_cons_of_mem _ hg)⟩
  | fail =>
    obtain ⟨world, stack'⟩ := m
    cases stack' with
    | nil => cases h
    | cons f rest =>
      cases h
      obtain ⟨hstart, hhanded, hresume⟩ := hm.stack f List.mem_cons_self
      exact ⟨hresume _ _ hev hhanded, hstart, fun g hg => hm.stack g (List.mem_cons_of_mem _ hg)⟩

theorem sound_next (hexec : ∀ l, ev = .call l → (exec l m.world).Safe I A E fun _ => I)
    (hm : m.Sound I A E) (hev : Allows A ev) (h : Step exec m ev m') : m'.Sound I A E := by
  simp only [Step, next, Option.map_eq_some_iff] at h
  obtain ⟨⟨start, stack, o⟩, hfire, rfl⟩ := h
  obtain ⟨ho, hback⟩ := sound_fire hexec hm hev hfire
  cases o with
  | reverted e => exact hback
  | returned a s => exact ⟨ho, hback.stack⟩
  | waiting query s resume =>
    refine ⟨ho.1, fun f hf => ?_⟩
    rcases List.mem_cons.mp hf with rfl | hf
    · exact ⟨hback.world, ho.1, ho.2⟩
    · exact hback.stack f hf

/-- What every function that is called keeps safely, the run keeps. -/
theorem sound_run_of {events : List (Event ℓ r)}
    (hexec : ∀ l, .call l ∈ events → ∀ s, I s → (exec l s).Safe I A E fun _ => I)
    (hrun : Run (Step exec) m events m') (hev : ∀ ev ∈ events, Allows A ev)
    (hm : m.Sound I A E) : m'.Sound I A E :=
  Run.invariant (C := fun ev => ev ∈ events)
    (fun _ ev _ hmem hs hst =>
      sound_next (fun l hl => hexec l (hl ▸ hmem) _ hs.world) hs (hev ev hmem) hst)
    hrun (fun _ h => h) hm

/-- What every function keeps safely, every run keeps. -/
theorem sound_run {events : List (Event ℓ r)}
    (hexec : ∀ l s, I s → (exec l s).Safe I A E fun _ => I) (hrun : Run (Step exec) m events m')
    (hev : ∀ ev ∈ events, Allows A ev) (hm : m.Sound I A E) : m'.Sound I A E :=
  sound_run_of (fun l _ => hexec l) hrun hev hm

/-- A machine in which no call is waiting. -/
theorem sound_idle {s : σ} (h : I s) : Sound I A E (⟨s, []⟩ : Machine ε σ q r) :=
  ⟨h, fun f hf => by cases hf⟩

/-! ## What goes on while a call waits -/

/-- Calls that complete take the storage from `s` to some `s'` with `G s s'`, and
a waiting call relies on that for the ones inside it: every frame was handed over
in a storage that `G` relates to where the next one began. `base` is where the
outermost began. -/
def Chain (I : σ → Prop) (G : σ → σ → Prop) (base : σ) : List (Frame ε σ q r) → σ → Prop
  | [], s => G base s
  | f :: rest, s => G f.handed s ∧ I f.handed ∧ I f.start ∧
      (∀ a s', I s' → G f.handed s' → (f.resume a s').Relies I G fun _ t => I t ∧ G f.start t) ∧
      Chain I G base rest f.start

structure Steady (I : σ → Prop) (G : σ → σ → Prop) (base : σ) (m : Machine ε σ q r) : Prop where
  world : I m.world
  chain : Chain I G base m.stack m.world

section Steady

variable {G : σ → σ → Prop} {base : σ}

/-- A completed call goes on from where the last one ended. -/
theorem chain_trans (htrans : ∀ s t u, G s t → G t u → G s u) {stack : List (Frame ε σ q r)}
    {s t : σ} (h : Chain I G base stack s) (hst : G s t) : Chain I G base stack t := by
  cases stack with
  | nil => exact htrans _ _ _ h hst
  | cons f rest => exact ⟨htrans _ _ _ h.1 hst, h.2⟩

/-- The outcome of an event, from a storage where a call began, goes on steadily. -/
theorem steady_settle (hrefl : ∀ s, G s s) (htrans : ∀ s t u, G s t → G t u → G s u) {start : σ}
    {stack : List (Frame ε σ q r)} {o : Outcome ε σ q r Unit} (hstart : I start)
    (hstack : Chain I G base stack start) (ho : o.Relies I G fun _ t => I t ∧ G start t) :
    (settle start stack o).Steady I G base := by
  cases o with
  | reverted e => exact ⟨hstart, hstack⟩
  | returned a s => exact ⟨ho.1, chain_trans htrans hstack ho.2⟩
  | waiting query s resume => exact ⟨ho.1, hrefl s, ho.1, hstart, ho.2, hstack⟩

theorem steady_next (hrefl : ∀ s, G s s) (htrans : ∀ s t u, G s t → G t u → G s u)
    (hexec : ∀ l, ev = .call l → (exec l m.world).Relies I G fun _ t => I t ∧ G m.world t)
    (hm : m.Steady I G base) (h : Step exec m ev m') : m'.Steady I G base := by
  obtain ⟨world, stack⟩ := m
  cases ev with
  | call l =>
    cases h
    exact steady_settle hrefl htrans hm.world hm.chain (hexec l rfl)
  | answer a =>
    cases stack with
    | nil => cases h
    | cons f rest =>
      cases h
      obtain ⟨hinside, -, hstart, hresume, hrest⟩ := hm.chain
      exact steady_settle hrefl htrans hstart hrest (hresume (some a) world hm.world hinside)
  | fail =>
    cases stack with
    | nil => cases h
    | cons f rest =>
      cases h
      obtain ⟨-, hhanded, hstart, hresume, hrest⟩ := hm.chain
      exact steady_settle hrefl htrans hstart hrest (hresume none f.handed hhanded (hrefl _))

/-- What every function that is called keeps and guarantees, the run does. -/
theorem steady_run_of {events : List (Event ℓ r)} (hrefl : ∀ s, G s s)
    (htrans : ∀ s t u, G s t → G t u → G s u)
    (hexec : ∀ l, .call l ∈ events → ∀ s, I s → (exec l s).Relies I G fun _ t => I t ∧ G s t)
    (hrun : Run (Step exec) m events m') (hm : m.Steady I G base) : m'.Steady I G base :=
  Run.invariant (C := fun ev => ev ∈ events)
    (fun _ _ _ hmem hs hst =>
      steady_next hrefl htrans (fun l hl => hexec l (hl ▸ hmem) _ hs.world) hs hst)
    hrun (fun _ h => h) hm

/-- What every function keeps and guarantees, every run does. -/
theorem steady_run {events : List (Event ℓ r)} (hrefl : ∀ s, G s s)
    (htrans : ∀ s t u, G s t → G t u → G s u)
    (hexec : ∀ l s, I s → (exec l s).Relies I G fun _ t => I t ∧ G s t)
    (hrun : Run (Step exec) m events m') (hm : m.Steady I G base) : m'.Steady I G base :=
  steady_run_of hrefl htrans (fun l _ => hexec l) hrun hm

end Steady

/-! ## Inside a waiting call -/

/-- The machine with more calls waiting below. -/
def under (base : List (Frame ε σ q r)) (m : Machine ε σ q r) : Machine ε σ q r :=
  ⟨m.world, m.stack ++ base⟩

theorem settle_under (base : List (Frame ε σ q r)) (start : σ) (stack : List (Frame ε σ q r))
    (o : Outcome ε σ q r Unit) : settle start (stack ++ base) o = (settle start stack o).under base := by
  cases o <;> rfl

/-- As long as none of the calls below is answered, they do not matter. -/
theorem step_under {base : List (Frame ε σ q r)} (hev : m.stack ≠ [] ∨ ∃ l, ev = .call l)
    (h : Step exec (m.under base) ev m') : ∃ n, Step exec m ev n ∧ m' = n.under base := by
  obtain ⟨world, stack⟩ := m
  cases ev with
  | call l =>
    cases h
    exact ⟨_, rfl, settle_under base world stack (exec l world)⟩
  | answer a | fail =>
    cases stack with
    | nil =>
      rcases hev with hnil | ⟨_, hcall⟩
      · exact absurd rfl hnil
      · cases hcall
    | cons f rest =>
      cases h
      exact ⟨_, rfl, settle_under base f.start rest _⟩

theorem under_step {base : List (Frame ε σ q r)} (h : Step exec m ev m') :
    Step exec (m.under base) ev (m'.under base) := by
  obtain ⟨world, stack⟩ := m
  cases ev with
  | call l =>
    cases h
    exact congrArg some (settle_under base world stack (exec l world))
  | answer a | fail =>
    cases stack with
    | nil => cases h
    | cons f rest =>
      cases h
      exact congrArg some (settle_under base f.start rest _)

end Machine

end AdvFoundry
