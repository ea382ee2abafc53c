import Mathlib.Data.List.Induction
import Mathlib.Data.Set.Basic

/-!
# Chains of blocks that hash their predecessor

Each block names the hash of the block before it, and its own hash is computed by `link` from that
hash and from its content. `Ideal` is what is assumed of `link` on a set of blocks: it does not
collide there, and it never gives `g`. Then a hash fixes the position of its block and everything up
to it, in any two chains.
-/

set_option autoImplicit false

namespace Avon.Lib.HashChain

structure Block (Hash Content : Type) where
  prev : Hash
  content : Content
  hash : Hash

variable {Hash Content : Type} {link : Hash → Content → Hash} {g : Hash}
  {as bs : List (Block Hash Content)} {S : Set (Block Hash Content)}

def Chained (link : Hash → Content → Hash) : Hash → List (Block Hash Content) → Prop
  | _, [] => True
  | g, b :: bs => b.prev = g ∧ b.hash = link g b.content ∧ Chained link b.hash bs

def lastHash (g : Hash) (bs : List (Block Hash Content)) : Hash :=
    (bs.getLast?.map Block.hash).getD g

def Digest (link : Hash → Content → Hash) (g h : Hash) : Prop := h = g ∨ ∃ p c, h = link p c

structure Ideal (link : Hash → Content → Hash) (g : Hash) (S : Set (Block Hash Content)) :
    Prop where
  inj : ∀ a ∈ S, ∀ b ∈ S, Digest link g a.prev → Digest link g b.prev →
    link a.prev a.content = link b.prev b.content → a.prev = b.prev ∧ a.content = b.content
  genesis : ∀ a ∈ S, link a.prev a.content ≠ g

@[simp]
theorem lastHash_nil : lastHash g ([] : List (Block Hash Content)) = g := rfl

@[simp]
theorem lastHash_concat (b : Block Hash Content) : lastHash g (bs ++ [b]) = b.hash := by
  simp [lastHash]

theorem lastHash_cons (b : Block Hash Content) : lastHash g (b :: bs) = lastHash b.hash bs := by
  cases bs with
  | nil => rfl
  | cons c cs => simp [lastHash, List.getLast?_cons]

theorem chained_append :
    Chained link g (as ++ bs) ↔ Chained link g as ∧ Chained link (lastHash g as) bs := by
  induction as generalizing g with
  | nil => simp [Chained]
  | cons a as ih => simp only [List.cons_append, Chained, ih, lastHash_cons, and_assoc]

theorem chained_concat {b : Block Hash Content} :
    Chained link g (as ++ [b]) ↔
      Chained link g as ∧ b.prev = lastHash g as ∧ b.hash = link (lastHash g as) b.content := by
  simp [chained_append, Chained]

theorem Chained.digest (h : Chained link g as) : Digest link g (lastHash g as) := by
  induction as using List.reverseRecOn with
  | nil => exact .inl rfl
  | append_singleton as a _ =>
    rw [lastHash_concat]
    exact .inr ⟨_, _, (chained_concat.mp h).2.2⟩

theorem Chained.take (h : Chained link g as) (n : ℕ) : Chained link g (as.take n) := by
  rw [← List.take_append_drop n as] at h
  exact (chained_append.mp h).1

theorem Chained.hash_eq (h : Chained link g as) : ∀ a ∈ as, a.hash = link a.prev a.content := by
  induction as generalizing g with
  | nil => exact fun a ha => absurd ha List.not_mem_nil
  | cons b as ih =>
    intro a ha
    obtain ⟨hprev, hhash, hrest⟩ := h
    rcases List.mem_cons.mp ha with rfl | hmem
    · rw [hhash, hprev]
    · exact ih hrest a hmem

theorem Chained.eq_of_lastHash (hS : Ideal link g S) (ha : Chained link g as)
    (hb : Chained link g bs) (hmemA : ∀ a ∈ as, a ∈ S) (hmemB : ∀ b ∈ bs, b ∈ S)
    (hlast : lastHash g as = lastHash g bs) : as = bs := by
  -- The last hash gives the last content and the hash before it.
  induction as using List.reverseRecOn generalizing bs with
  | nil =>
    cases bs using List.reverseRecOn with
    | nil => rfl
    | append_singleton bs b _ =>
      obtain ⟨-, hprev, hhash⟩ := chained_concat.mp hb
      rw [lastHash_nil, lastHash_concat, hhash, ← hprev] at hlast
      exact absurd hlast.symm (hS.genesis b (hmemB b (by simp)))
  | append_singleton as a ih =>
    obtain ⟨hchainA, hprevA, hhashA⟩ := chained_concat.mp ha
    cases bs using List.reverseRecOn with
    | nil =>
      rw [lastHash_nil, lastHash_concat, hhashA, ← hprevA] at hlast
      exact absurd hlast (hS.genesis a (hmemA a (by simp)))
    | append_singleton bs b _ =>
      obtain ⟨hchainB, hprevB, hhashB⟩ := chained_concat.mp hb
      rw [lastHash_concat, lastHash_concat] at hlast
      have hlink : link a.prev a.content = link b.prev b.content := by
        rw [hprevA, hprevB, ← hhashA, ← hhashB, hlast]
      obtain ⟨hprev, hcontent⟩ := hS.inj a (hmemA a (by simp)) b (hmemB b (by simp))
        (hprevA ▸ hchainA.digest) (hprevB ▸ hchainB.digest) hlink
      have hrest : as = bs := ih hchainA hchainB (fun c hc => hmemA c (by simp [hc]))
        (fun c hc => hmemB c (by simp [hc])) (by rw [← hprevA, hprev, hprevB])
      have hblock : a = b := by
        cases a
        cases b
        simp_all
      rw [hrest, hblock]

theorem lastHash_take {a : Block Hash Content} {i : ℕ} (h : as[i]? = some a) :
    lastHash g (as.take (i + 1)) = a.hash := by
  rw [List.take_add_one, h, Option.toList_some, lastHash_concat]

variable {a b : Block Hash Content} {i j : ℕ}

theorem Chained.take_eq (hS : Ideal link g S) (ha : Chained link g as) (hb : Chained link g bs)
    (hmemA : ∀ a ∈ as, a ∈ S) (hmemB : ∀ b ∈ bs, b ∈ S)
    (hi : as[i]? = some a) (hj : bs[j]? = some b) (hash : a.hash = b.hash) :
    as.take (i + 1) = bs.take (j + 1) := by
  apply Chained.eq_of_lastHash hS (ha.take _) (hb.take _)
  · exact fun c hc => hmemA c (List.mem_of_mem_take hc)
  · exact fun c hc => hmemB c (List.mem_of_mem_take hc)
  · rw [lastHash_take hi, lastHash_take hj, hash]

theorem Chained.index_eq (hS : Ideal link g S) (ha : Chained link g as) (hb : Chained link g bs)
    (hmemA : ∀ a ∈ as, a ∈ S) (hmemB : ∀ b ∈ bs, b ∈ S)
    (hi : as[i]? = some a) (hj : bs[j]? = some b) (hash : a.hash = b.hash) : i = j := by
  have hlength := congrArg List.length (Chained.take_eq hS ha hb hmemA hmemB hi hj hash)
  obtain ⟨hilt, -⟩ := List.getElem?_eq_some_iff.mp hi
  obtain ⟨hjlt, -⟩ := List.getElem?_eq_some_iff.mp hj
  rw [List.length_take, List.length_take] at hlength
  omega

theorem Chained.block_eq (hS : Ideal link g S) (ha : Chained link g as) (hb : Chained link g bs)
    (hmemA : ∀ a ∈ as, a ∈ S) (hmemB : ∀ b ∈ bs, b ∈ S)
    (hi : as[i]? = some a) (hj : bs[j]? = some b) (hash : a.hash = b.hash) : a = b := by
  have hij := Chained.index_eq hS ha hb hmemA hmemB hi hj hash
  have htake := Chained.take_eq hS ha hb hmemA hmemB hi hj hash
  have hblock := congrArg (fun cs => cs[i]?) htake
  simp only [← hij, List.getElem?_take_of_lt (Nat.lt_succ_self i), hi] at hblock
  rw [← hij] at hj
  exact Option.some.inj (hblock.trans hj)

end Avon.Lib.HashChain
