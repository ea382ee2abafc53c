import Avon.Gateway.FlowPolicy

/-!
# Decisions on flows

`allow_cases` lists what a decision can be: permissive, from the cache, or made and stored.
-/

set_option autoImplicit false

namespace Avon.Gateway

open Avon.Policy

def CedarFlowPolicy.Permissive (p : CedarFlowPolicy) (tenant : TenantId) : Prop :=
  ∀ e, p.engines tenant = some e → e.hasPolicies = false

/-- The decision of an engine, and the policy that has it cached. -/
def CedarFlowPolicy.decided (p : CedarFlowPolicy) (ctx : FlowContext) (e : Engine) :
    Decision × CedarFlowPolicy :=
  let allow := (e.decide ctx.request).allow
  (⟨allow, if allow then "permit" else "deny"⟩,
    { p with cache := Function.update p.cache ctx.key (some ⟨allow, e.version⟩) })

theorem allow_cases (p : CedarFlowPolicy) (ctx : FlowContext) :
    (p.Permissive ctx.tenant ∧ p.allow ctx = (⟨true, "no-policy-permissive"⟩, p)) ∨
    ∃ e, p.engines ctx.tenant = some e ∧ e.hasPolicies = true ∧
      ((∃ cached, p.cache ctx.key = some cached ∧ cached.version = e.version ∧
          p.allow ctx = (⟨cached.allow, "cached"⟩, p)) ∨
        ((∀ cached, p.cache ctx.key = some cached → cached.version ≠ e.version) ∧
          p.allow ctx = p.decided ctx e)) := by
  unfold CedarFlowPolicy.allow
  cases he : p.engines ctx.tenant with
  | none => exact .inl ⟨fun e h => (nomatch he.symm.trans h), rfl⟩
  | some e =>
    cases hp : e.hasPolicies with
    | false =>
      refine .inl ⟨fun e' h => ?_, by simp [hp]⟩
      cases he.symm.trans h
      exact hp
    | true =>
      refine .inr ⟨e, rfl, hp, ?_⟩
      simp only [hp, Bool.not_true, Bool.false_eq_true, if_false]
      cases hc : p.cache ctx.key with
      | none => exact .inr ⟨fun _ h => (nomatch h), rfl⟩
      | some cached =>
        by_cases hv : cached.version = e.version
        · exact .inl ⟨cached, rfl, hv, by simp only [hv, if_true]⟩
        refine .inr ⟨fun c h => ?_, by simp only [hv, if_false]; rfl⟩
        cases h
        exact hv

theorem allow_frame (p : CedarFlowPolicy) (ctx : FlowContext) :
    (p.allow ctx).2.engines = p.engines ∧
      ∀ key, key ≠ ctx.key → (p.allow ctx).2.cache key = p.cache key := by
  obtain ⟨-, h⟩ | ⟨e, -, -, ⟨cached, -, -, h⟩ | ⟨-, h⟩⟩ := allow_cases p ctx
  · rw [h]
    exact ⟨rfl, fun _ _ => rfl⟩
  · rw [h]
    exact ⟨rfl, fun _ _ => rfl⟩
  · rw [h]
    exact ⟨rfl, fun _ hkey => Function.update_of_ne hkey _ _⟩

theorem allow_congr {p q : CedarFlowPolicy} {ctx : FlowContext} (hengines : p.engines = q.engines)
    (hcache : p.cache ctx.key = q.cache ctx.key) :
    (p.allow ctx).1 = (q.allow ctx).1 ∧
      ∀ key, p.cache key = q.cache key → (p.allow ctx).2.cache key = (q.allow ctx).2.cache key := by
  have hupdate : ∀ (v : Option CachedDecision) key, p.cache key = q.cache key →
      Function.update p.cache ctx.key v key = Function.update q.cache ctx.key v key := by
    intro v key hkey
    by_cases heq : key = ctx.key
    · rw [heq, Function.update_self, Function.update_self]
    · rw [Function.update_of_ne heq, Function.update_of_ne heq, hkey]
  unfold CedarFlowPolicy.allow
  rw [hengines, hcache]
  split
  · exact ⟨rfl, fun _ h => h⟩
  split
  · exact ⟨rfl, fun _ h => h⟩
  simp only
  split
  · split
    · exact ⟨rfl, fun _ h => h⟩
    · exact ⟨rfl, hupdate _⟩
  · exact ⟨rfl, hupdate _⟩

end Avon.Gateway
