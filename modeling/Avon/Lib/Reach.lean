import Mathlib.Data.Finset.Card
import Mathlib.Logic.Function.Basic
import Mathlib.Logic.Relation

/-!
# Reachability in a finite graph

A graph is a function `next : α → List α`. `mem_reach_iff`: with as much fuel as there are nodes
with successors, `reach` is the transitive closure. The proof takes a path from its last visit to
the first node, which is a path in the graph without the edges of this node.
-/

set_option autoImplicit false

namespace Avon.Lib.Reach

variable {α : Type*} (next : α → List α)

/-- The nodes at the end of a path of `1` to `fuel` steps from `a`. -/
def reach : ℕ → α → List α
  | 0, _ => []
  | fuel + 1, a => (next a).flatMap fun b => b :: reach fuel b

def Edge (a b : α) : Prop := b ∈ next a

variable {next} {a b : α} {fuel : ℕ}

theorem transGen_of_mem_reach (h : b ∈ reach next fuel a) : Relation.TransGen (Edge next) a b := by
  induction fuel generalizing a with
  | zero => cases h
  | succ fuel ih =>
    obtain ⟨c, hc, hb⟩ := List.mem_flatMap.mp h
    rcases List.mem_cons.mp hb with rfl | hb
    · exact .single hc
    · exact .head hc (ih hb)

theorem reach_mono {next' : α → List α} (hsub : ∀ a, next' a ⊆ next a)
    (h : b ∈ reach next' fuel a) : b ∈ reach next fuel a := by
  induction fuel generalizing a with
  | zero => cases h
  | succ fuel ih =>
    obtain ⟨c, hc, hb⟩ := List.mem_flatMap.mp h
    refine List.mem_flatMap.mpr ⟨c, hsub a hc, ?_⟩
    rcases List.mem_cons.mp hb with rfl | hb
    · exact List.mem_cons_self
    · exact List.mem_cons_of_mem _ (ih hb)

/-- After its last visit to `a`, a path from `a` uses no edge of `a`. -/
theorem exists_avoiding [DecidableEq α] (h : Relation.TransGen (Edge next) a b) :
    ∃ c ∈ next a, Relation.ReflTransGen (Edge (Function.update next a [])) c b := by
  induction h with
  | single hab => exact ⟨_, hab, .refl⟩
  | @tail b d _ hbd ih =>
    by_cases hba : b = a
    · exact ⟨d, hba ▸ hbd, .refl⟩
    obtain ⟨c, hc, hcb⟩ := ih
    refine ⟨c, hc, hcb.tail ?_⟩
    simpa [Edge, Function.update_of_ne hba] using hbd

theorem mem_reach_of_transGen [DecidableEq α] {s : Finset α} (hnodes : ∀ a, next a ≠ [] → a ∈ s)
    (hfuel : s.card ≤ fuel) (h : Relation.TransGen (Edge next) a b) : b ∈ reach next fuel a := by
  induction fuel generalizing next s a with
  | zero =>
    obtain ⟨c, hc, -⟩ := exists_avoiding h
    have hmem := hnodes a (List.ne_nil_of_mem hc)
    simp [Finset.card_eq_zero.mp (Nat.le_zero.mp hfuel)] at hmem
  | succ fuel ih =>
    obtain ⟨c, hc, hcb⟩ := exists_avoiding h
    refine List.mem_flatMap.mpr ⟨c, hc, ?_⟩
    rcases Relation.reflTransGen_iff_eq_or_transGen.mp hcb with rfl | hcb
    · exact List.mem_cons_self
    have hcard := Finset.card_erase_of_mem (hnodes a (List.ne_nil_of_mem hc))
    refine List.mem_cons_of_mem _ (reach_mono ?_ (ih (s := s.erase a) ?_ (by omega) hcb))
    · intro x
      by_cases hx : x = a <;> simp [hx]
    · intro x hx
      by_cases hxa : x = a
      · simp [hxa] at hx
      · exact Finset.mem_erase.mpr ⟨hxa, hnodes x (by simpa [hxa] using hx)⟩

theorem mem_reach_iff [DecidableEq α] {s : Finset α} (hnodes : ∀ a, next a ≠ [] → a ∈ s)
    (hfuel : s.card ≤ fuel) :
    b ∈ reach next fuel a ↔ Relation.TransGen (Edge next) a b :=
  ⟨transGen_of_mem_reach, mem_reach_of_transGen hnodes hfuel⟩

end Avon.Lib.Reach
