import Mathlib.Data.List.Induction
import Mathlib.Tactic.Common

/-!
# Merkle trees

A node is the hash of its two children. A proof for a leaf lists the siblings on
the way up, and `climb` is what a verifier computes from it.

`climb_of_proves`: a proof of a leaf leads to the root. `climb_cases` is the
converse for a proof that anybody made up: as long as the pairs hashed on the way
do not collide with those of the tree, it is a proof of a leaf, or it starts at a
node further up, or it starts below a leaf.

`build` makes a tree of a list, level by level, and `siblings` reads the proofs off
the levels. They prove the elements of the list (`proves_siblings`), and the tree has
no other leaves than these and the one that stands in for a missing neighbour
(`mem_leaves_build`).
-/

namespace AdvFoundry

inductive MerkleTree (α : Type)
  | leaf (a : α)
  | node (l r : MerkleTree α)

namespace MerkleTree

variable {α : Type}

def leaves : MerkleTree α → List α
  | leaf a => [a]
  | node l r => l.leaves ++ r.leaves

section Hash

variable (pair : α → α → α)

def root : MerkleTree α → α
  | leaf a => a
  | node l r => pair l.root r.root

/-- What is hashed in a tree. -/
def pairs : MerkleTree α → List (α × α)
  | leaf _ => []
  | node l r => (l.root pair, r.root pair) :: (l.pairs ++ r.pairs)

/-- What a verifier computes. -/
def climb (proof : List α) (a : α) : α := proof.foldl pair a

/-- What it hashes. -/
def climbPairs : List α → α → List (α × α)
  | [], _ => []
  | p :: proof, a => (a, p) :: climbPairs proof (pair a p)

/-- The siblings on the way from a leaf to the root. -/
inductive Proves : MerkleTree α → List α → α → Prop
  | leaf (a : α) : Proves (leaf a) [] a
  | left {l r : MerkleTree α} {proof : List α} {a : α} :
      Proves l proof a → Proves (node l r) (proof ++ [r.root pair]) a
  | right {l r : MerkleTree α} {proof : List α} {a : α} :
      Proves r proof a → Proves (node l r) (proof ++ [l.root pair]) a

end Hash

variable {pair : α → α → α} {t : MerkleTree α} {proof : List α} {a s : α}

@[simp] theorem climb_nil : climb pair [] a = a := rfl

@[simp] theorem climb_append : climb pair (proof ++ [s]) a = pair (climb pair proof a) s := by
  simp [climb]

@[simp] theorem climbPairs_append :
    climbPairs pair (proof ++ [s]) a = climbPairs pair proof a ++ [(climb pair proof a, s)] := by
  induction proof generalizing a with
  | nil => rfl
  | cons p proof ih =>
    rw [List.cons_append, climbPairs, climbPairs, ih]
    rfl

/-! ## The proofs of a tree -/

theorem exists_proves (ha : a ∈ t.leaves) : ∃ proof, Proves pair t proof a := by
  induction t with
  | leaf b =>
    rw [leaves, List.mem_singleton] at ha
    subst ha
    exact ⟨[], .leaf a⟩
  | node l r ihl ihr =>
    rw [leaves, List.mem_append] at ha
    cases ha with
    | inl hl =>
      obtain ⟨proof, hproof⟩ := ihl hl
      exact ⟨_, .left hproof⟩
    | inr hr =>
      obtain ⟨proof, hproof⟩ := ihr hr
      exact ⟨_, .right hproof⟩

theorem mem_leaves_of_proves (h : Proves pair t proof a) : a ∈ t.leaves := by
  induction h with
  | leaf a => exact List.mem_singleton_self a
  | left _ ih => exact List.mem_append_left _ ih
  | right _ ih => exact List.mem_append_right _ ih

theorem climb_of_proves (hcomm : ∀ a b, pair a b = pair b a) (h : Proves pair t proof a) :
    climb pair proof a = t.root pair := by
  induction h with
  | leaf a => rfl
  | left _ ih => rw [climb_append, ih, root]
  | right _ ih => rw [climb_append, ih, root, hcomm]

/-! ## Level by level -/

section Build

variable (pair) (zero : α)

/-- The next level: neighbours are joined, and an odd one out is joined with `zero`. -/
def levelUp : List (MerkleTree α) → List (MerkleTree α)
  | [] => []
  | [t] => [node t (leaf zero)]
  | l :: r :: ts => node l r :: levelUp ts

/-- The root of the neighbour of the `i`-th tree of a level. -/
def sibling (ts : List (MerkleTree α)) (i : Nat) : α :=
  ((ts[if i % 2 = 1 then i - 1 else i + 1]?).map (root pair)).getD zero

/-- The only tree left after at most `fuel` levels. -/
def buildFrom : (fuel : Nat) → List (MerkleTree α) → MerkleTree α
  | fuel + 1, l :: r :: ts => buildFrom fuel (levelUp zero (l :: r :: ts))
  | _, t :: _ => t
  | _, [] => leaf zero

/-- The neighbours of the `i`-th tree and of what it becomes a part of. -/
def siblingsFrom : (fuel : Nat) → List (MerkleTree α) → Nat → List α
  | fuel + 1, l :: r :: ts, i =>
    sibling pair zero (l :: r :: ts) i ::
      siblingsFrom fuel (levelUp zero (l :: r :: ts)) (i / 2)
  | _, _, _ => []

/-- The tree over a list of leaves. -/
def build (data : List α) : MerkleTree α := buildFrom zero data.length (data.map leaf)

/-- The proof of the `i`-th leaf. -/
def siblings (data : List α) (i : Nat) : List α :=
  siblingsFrom pair zero data.length (data.map leaf) i

end Build

section Levels

variable {zero : α} {ts : List (MerkleTree α)} {i : Nat} {fuel : Nat}

theorem length_levelUp : (levelUp zero ts).length = (ts.length + 1) / 2 := by
  induction ts using levelUp.induct with
  | case1 => simp [levelUp]
  | case2 t => simp [levelUp]
  | case3 l r ts ih =>
    rw [levelUp, List.length_cons, ih, List.length_cons, List.length_cons]
    omega

/-- Two further to the right, the neighbours are the same. -/
theorem sibling_cons_cons (l r : MerkleTree α) :
    sibling pair zero (l :: r :: ts) (i + 2) = sibling pair zero ts i := by
  unfold sibling
  rw [Nat.add_mod_right]
  split
  · next hodd =>
    have hshift : i + 2 - 1 = i - 1 + 2 := by omega
    rw [hshift, List.getElem?_cons_succ, List.getElem?_cons_succ]
  · rw [Nat.add_right_comm, List.getElem?_cons_succ, List.getElem?_cons_succ]

/-- The neighbour takes a proof one level up. -/
theorem proves_levelUp (zero : α) (ht : ts[i]? = some t) (h : Proves pair t proof a) :
    ∃ u, (levelUp zero ts)[i / 2]? = some u ∧
      Proves pair u (proof ++ [sibling pair zero ts i]) a := by
  induction ts using levelUp.induct generalizing i with
  | case1 => cases ht
  | case2 t' =>
    cases i with
    | zero =>
      cases ht
      exact ⟨_, rfl, .left h⟩
    | succ i => cases ht
  | case3 l r ts ih =>
    match i, ht with
    | 0, ht =>
      cases ht
      exact ⟨_, rfl, .left h⟩
    | 1, ht =>
      cases ht
      exact ⟨_, rfl, .right h⟩
    | i + 2, ht =>
      obtain ⟨u, hu, hproves⟩ := ih ht
      rw [sibling_cons_cons, Nat.add_div_right i (by decide)]
      exact ⟨u, hu, hproves⟩

theorem mem_leaves_levelUp (ht : t ∈ levelUp zero ts) (ha : a ∈ t.leaves) :
    a = zero ∨ ∃ u ∈ ts, a ∈ u.leaves := by
  induction ts using levelUp.induct with
  | case1 => cases ht
  | case2 u =>
    rw [List.mem_singleton.mp ht, leaves, List.mem_append] at ha
    rcases ha with ha | ha
    · exact .inr ⟨u, List.mem_singleton_self u, ha⟩
    · exact .inl (List.mem_singleton.mp ha)
  | case3 l r ts ih =>
    rcases List.mem_cons.mp ht with rfl | ht
    · rw [leaves, List.mem_append] at ha
      rcases ha with ha | ha
      · exact .inr ⟨l, List.mem_cons_self, ha⟩
      · exact .inr ⟨r, List.mem_cons_of_mem _ List.mem_cons_self, ha⟩
    · refine (ih ht).imp_right fun ⟨u, hu, ha⟩ => ?_
      exact ⟨u, List.mem_cons_of_mem _ (List.mem_cons_of_mem _ hu), ha⟩

/-- The neighbours on all levels take a proof to the top. -/
theorem proves_siblingsFrom (zero : α) (hfuel : ts.length ≤ fuel + 1) (ht : ts[i]? = some t)
    (h : Proves pair t proof a) :
    Proves pair (buildFrom zero fuel ts) (proof ++ siblingsFrom pair zero fuel ts i) a := by
  induction fuel generalizing ts i t proof with
  | zero =>
    match ts, hfuel with
    | [], _ => cases ht
    | [u], _ =>
      cases i with
      | zero =>
        cases ht
        rw [siblingsFrom, List.append_nil]
        · exact h
        · exact nofun
      | succ i => cases ht
  | succ fuel ih =>
    match ts, hfuel with
    | [], _ => cases ht
    | [u], _ =>
      cases i with
      | zero =>
        cases ht
        rw [siblingsFrom, List.append_nil]
        · exact h
        · exact nofun
      | succ i => cases ht
    | l :: r :: ts, hfuel =>
      -- one level up the proof is longer by the neighbour, and the place is halved
      obtain ⟨u, hu, hproves⟩ := proves_levelUp zero ht h
      have hless : (levelUp zero (l :: r :: ts)).length ≤ fuel + 1 := by
        rw [length_levelUp]
        rw [List.length_cons, List.length_cons] at hfuel ⊢
        omega
      have hnext := ih hless hu hproves
      rw [List.append_assoc] at hnext
      exact hnext

theorem mem_leaves_buildFrom (ha : a ∈ (buildFrom zero fuel ts).leaves) :
    a = zero ∨ ∃ u ∈ ts, a ∈ u.leaves := by
  induction fuel generalizing ts with
  | zero =>
    cases ts with
    | nil => exact .inl (List.mem_singleton.mp ha)
    | cons t ts => exact .inr ⟨t, List.mem_cons_self, ha⟩
  | succ fuel ih =>
    match ts with
    | [] => exact .inl (List.mem_singleton.mp ha)
    | [t] => exact .inr ⟨t, List.mem_singleton_self t, ha⟩
    | l :: r :: ts =>
      rcases ih ha with hzero | ⟨u, hu, ha⟩
      · exact .inl hzero
      · exact mem_leaves_levelUp hu ha

end Levels

/-- The proof read off the levels is a proof of the leaf. -/
theorem proves_siblings (pair : α → α → α) (zero : α) {data : List α} {i : Nat}
    (h : i < data.length) :
    Proves pair (build zero data) (siblings pair zero data i) data[i] := by
  have hleaf : (data.map leaf)[i]? = some (leaf data[i]) := by
    rw [List.getElem?_map, List.getElem?_eq_getElem h]
    rfl
  have hfuel : (data.map leaf).length ≤ data.length + 1 := by
    rw [List.length_map]
    exact Nat.le_succ _
  have hself : Proves pair (leaf data[i]) [] data[i] := .leaf _
  have hproves := proves_siblingsFrom zero hfuel hleaf hself
  exact hproves

/-- The leaves are the elements of the list, and perhaps `zero`. -/
theorem mem_leaves_build {zero : α} {data : List α} (ha : a ∈ (build zero data).leaves) :
    a = zero ∨ a ∈ data := by
  refine (mem_leaves_buildFrom ha).imp_right fun ⟨u, hu, hau⟩ => ?_
  obtain ⟨b, hb, rfl⟩ := List.mem_map.mp hu
  rw [List.mem_singleton.mp hau]
  exact hb

/-! ## Made-up proofs -/

/-- What a proof that leads to the root can be: a proof of a leaf, one that starts
at the hash of two nodes of the tree, or one that hashes two values to a leaf. -/
theorem climb_cases
    (hinj : ∀ p ∈ t.pairs pair, ∀ q ∈ climbPairs pair proof a,
      pair p.1 p.2 = pair q.1 q.2 → p = q ∨ p = q.swap)
    (h : climb pair proof a = t.root pair) :
    Proves pair t proof a ∨ (∃ p ∈ t.pairs pair, a = pair p.1 p.2) ∨
      ∃ b ∈ t.leaves, ∃ q ∈ climbPairs pair proof a, b = pair q.1 q.2 := by
  induction t generalizing proof with
  | leaf b =>
    cases proof using List.reverseRecOn with
    | nil =>
      rw [climb_nil, root] at h
      subst h
      exact .inl (.leaf a)
    | append_singleton proof s =>
      rw [climb_append, root] at h
      exact .inr (.inr ⟨b, List.mem_singleton_self b, (climb pair proof a, s), by simp, h.symm⟩)
  | node l r ihl ihr =>
    cases proof using List.reverseRecOn with
    | nil => exact .inr (.inl ⟨_, List.mem_cons_self, h⟩)
    | append_singleton proof s =>
      have hlower : ∀ q ∈ climbPairs pair proof a, q ∈ climbPairs pair (proof ++ [s]) a := by
        intro q hq
        rw [climbPairs_append]
        exact List.mem_append_left _ hq
      have hleft : ∀ p ∈ l.pairs pair, p ∈ (node l r).pairs pair :=
        fun p hp => List.mem_cons_of_mem _ (List.mem_append_left _ hp)
      have hright : ∀ p ∈ r.pairs pair, p ∈ (node l r).pairs pair :=
        fun p hp => List.mem_cons_of_mem _ (List.mem_append_right _ hp)
      rw [climb_append, root] at h
      rcases hinj _ List.mem_cons_self (climb pair proof a, s) (by simp) h.symm with heq | heq
      · obtain ⟨hl, rfl⟩ := Prod.mk.inj heq
        rcases ihl (fun p hp q hq => hinj p (hleft p hp) q (hlower q hq)) hl.symm with
          hproves | ⟨p, hp, ha⟩ | ⟨b, hb, q, hq, hbq⟩
        · exact .inl (.left hproves)
        · exact .inr (.inl ⟨p, hleft p hp, ha⟩)
        · exact .inr (.inr ⟨b, List.mem_append_left _ hb, q, hlower q hq, hbq⟩)
      · obtain ⟨rfl, hr⟩ := Prod.mk.inj heq
        rcases ihr (fun p hp q hq => hinj p (hright p hp) q (hlower q hq)) hr.symm with
          hproves | ⟨p, hp, ha⟩ | ⟨b, hb, q, hq, hbq⟩
        · exact .inl (.right hproves)
        · exact .inr (.inl ⟨p, hright p hp, ha⟩)
        · exact .inr (.inr ⟨b, List.mem_append_right _ hb, q, hlower q hq, hbq⟩)

end MerkleTree

end AdvFoundry
