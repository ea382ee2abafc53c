import Avon.Lib.Run

/-!
# Noninterference by unwinding

Two runs of one system whose events differ only where they are hidden give the same visible outputs.
`Unwinding` has the conditions on single steps, and `Unwinding.trace_eq` is the result.
-/

set_option autoImplicit false

namespace Avon.Lib.Run

variable {σ ε ω : Type*} {step : σ → ε → σ}

/-- The conditions of unwinding. `Inv` holds in every state of both runs, `G` is the guard of
their steps, and `R` relates states that look the same from outside. -/
structure Unwinding (step : σ → ε → σ) (out : σ → ε → List ω) (Inv : σ → Prop)
    (G : σ → ε → Prop) (hidden : ε → Bool) (visible : ω → Bool) (R : σ → σ → Prop) : Prop where
  inv : ∀ {s e}, Inv s → G s e → Inv (step s e)
  symm : ∀ {s t}, R s t → R t s
  silent : ∀ {s e}, Inv s → G s e → hidden e = true → (out s e).filter visible = []
  hide : ∀ {s t e}, Inv s → G s e → hidden e = true → R s t → R (step s e) t
  same : ∀ {s t e}, Inv s → Inv t → G s e → G t e → hidden e = false → R s t →
    R (step s e) (step t e) ∧ (out s e).filter visible = (out t e).filter visible

namespace Unwinding

variable {out : σ → ε → List ω} {Inv : σ → Prop} {G : σ → ε → Prop} {hidden : ε → Bool}
  {visible : ω → Bool} {R : σ → σ → Prop}

theorem run_hidden (h : Unwinding step out Inv G hidden visible R) {s t : σ} {xs : List ε}
    (hs : Inv s) (hG : Guarded step G s xs) (hhidden : ∀ e ∈ xs, hidden e = true) (hR : R s t) :
    Inv (run step s xs) ∧ R (run step s xs) t ∧ (trace step out s xs).filter visible = [] := by
  induction xs generalizing s with
  | nil => exact ⟨hs, hR, rfl⟩
  | cons e xs ih =>
    obtain ⟨he, hxs⟩ := List.forall_mem_cons.mp hhidden
    obtain ⟨hinv, hrel, htrace⟩ := ih (h.inv hs hG.1) hG.2 hxs (h.hide hs hG.1 he hR)
    refine ⟨hinv, hrel, ?_⟩
    rw [trace, List.filter_append, h.silent hs hG.1 he, htrace, List.append_nil]

/-- Two guarded runs with the same events apart from hidden ones have the same visible
outputs. -/
theorem trace_eq (h : Unwinding step out Inv G hidden visible R) {s t : σ} {xs ys : List ε}
    (hs : Inv s) (ht : Inv t) (hxs : Guarded step G s xs) (hys : Guarded step G t ys) (hR : R s t)
    (heq : xs.filter (fun e => !hidden e) = ys.filter (fun e => !hidden e)) :
    (trace step out s xs).filter visible = (trace step out t ys).filter visible := by
  induction xs generalizing s t ys with
  | nil =>
    have hhidden : ∀ e ∈ ys, hidden e = true := by
      simpa [List.filter_eq_nil_iff] using heq.symm
    rw [(h.run_hidden ht hys hhidden (h.symm hR)).2.2]
    rfl
  | cons e xs ih =>
    cases he : hidden e with
    | true =>
      rw [List.filter_cons_of_neg (by simp [he])] at heq
      rw [trace, List.filter_append, h.silent hs hxs.1 he, List.nil_append]
      exact ih (h.inv hs hxs.1) ht hxs.2 hys (h.hide hs hxs.1 he hR) heq
    | false =>
      -- The other run reaches the same event after some hidden ones.
      rw [List.filter_cons_of_pos (by simp [he])] at heq
      obtain ⟨zs, ws, rfl, hzs, -, hws⟩ := List.filter_eq_cons_iff.mp heq.symm
      obtain ⟨hgz, hgw⟩ := guarded_append.mp hys
      obtain ⟨hinv, hrel, htrace⟩ := h.run_hidden ht hgz (by simpa using hzs) (h.symm hR)
      obtain ⟨hnext, hout⟩ := h.same hs hinv hxs.1 hgw.1 he (h.symm hrel)
      rw [trace_append, trace, trace, List.filter_append, List.filter_append,
        List.filter_append, htrace, List.nil_append, hout,
        ih (h.inv hs hxs.1) (h.inv hinv hgw.1) hxs.2 hgw.2 hnext hws.symm]

end Unwinding

end Avon.Lib.Run
