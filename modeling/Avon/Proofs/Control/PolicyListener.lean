import Avon.Control.PolicyListener
import Avon.Proofs.Policy.Decide

/-!
# When no policy change is lost

A notification is the only trace of a change. While nothing is lost, each change is covered
(`Inv.fresh`). But nothing is refreshed after a reconnection, an error leaves the old drain task
behind, and of two refreshes that overlap the one that loads last wins (`changes_lost`). Each of the
three is excluded by one case of `undisturbed`, which looks at an event and the state before it.

`EachRefreshed` is the fourth condition: a tenant for which nothing was ever refreshed has no
engine, and nothing of that kind is pending either.
-/

set_option autoImplicit false

namespace Avon.Control.Listener

open Avon.Policy Avon.Lib.Run

/-! ### Versions -/

variable {tenant t : TenantId} {d : Drainer}

theorem find?_bumpVersion_of_ne (h : t ≠ tenant) (rows : List SnapshotRow) :
    (bumpVersion tenant rows).find? (fun row => row.tenantId = t) =
      rows.find? fun row => row.tenantId = t := by
  induction rows with
  | nil => simp [bumpVersion, h.symm]
  | cons row rows ih =>
    unfold bumpVersion
    split
    · rename_i hrow
      have hne : ¬ row.tenantId = t := fun heq => h (heq.symm.trans hrow)
      simp [hne]
    · simp only [List.find?_cons, ih]

theorem find?_bumpPolicySnapshot {changes : List TenantId} {t : TenantId} (h : t ∉ changes)
    (rows : List SnapshotRow) :
    (bumpPolicySnapshot changes rows).find? (fun row => row.tenantId = t) =
      rows.find? fun row => row.tenantId = t := by
  induction changes generalizing rows with
  | nil => rfl
  | cons tenant changes ih =>
    rw [List.mem_cons, not_or] at h
    obtain ⟨hne, hrest⟩ := h
    exact (ih hrest _).trans (find?_bumpVersion_of_ne hne rows)

/-! ### Loading -/

theorem loadEngine_of_ne (env : PushEnv) (engines : Engines) (h : t ≠ tenant)
    (data : SnapshotData) (now : ℤ) : (loadEngine env engines tenant data now).1 t = engines t := by
  unfold loadEngine
  simp only
  split <;> exact Function.update_of_ne h ..

theorem loadEngine_of_isOk {env : PushEnv} {engines : Engines} {tenant : TenantId}
    {data : SnapshotData} {now : ℤ} (h : (loadEngine env engines tenant data now).2.isOk = true) :
    ∃ e loaded, (loadEngine env engines tenant data now).1 tenant = some e ∧
      e.inner = some loaded ∧ loaded.data = data := by
  unfold loadEngine at h ⊢
  simp only at h ⊢
  split at h
  · rename_i engine hload
    obtain ⟨l, rfl, -, hl⟩ := loadedAt_of_load hload
    exact ⟨_, l, Function.update_self .., rfl, hl.holds⟩
  · cases h

/-! ### The invariant -/

/-- What is running has read the current version; if nothing is, the engine has it, or the last
refresh failed. -/
structure Fresh (s : Listener) (t : TenantId) : Prop where
  read : ∀ r ∈ s.refreshes, r.1 = t → r.2.version = s.db.snapshotVersion t
  loaded : (∀ r ∈ s.refreshes, r.1 ≠ t) → s.lastRefresh t = some true → s.Loaded t

structure Inv (s : Listener) : Prop where
  single : s.drainers.length ≤ 1
  live : s.connection ≠ .down → s.drainers ≠ []
  once : (s.refreshes.map Prod.fst).Nodup
  fresh : ∀ t, t ∉ s.waiting → Fresh s t

variable {env : PushEnv} {s s' : Listener}

theorem inv_start (db : Db) : Inv (start db) where
  single := Nat.zero_le 1
  live h := absurd rfl h
  once := List.nodup_nil
  fresh _ _ := ⟨List.forall_mem_nil _, fun _ h => by cases h⟩

/-- The step changes neither refreshes nor engines, and every tenant that waited still does. -/
structure Passes (s s' : Listener) : Prop where
  refreshes : s'.refreshes = s.refreshes
  engines : s'.engines = s.engines
  lastRefresh : s'.lastRefresh = s.lastRefresh
  waiting : ∀ t, t ∉ s'.waiting → t ∉ s.waiting ∧
    s'.db.snapshotVersion t = s.db.snapshotVersion t

theorem Inv.passes (h : Inv s) (hp : Passes s s') (hsingle : s'.drainers.length ≤ 1)
    (hlive : s'.connection ≠ .down → s'.drainers ≠ []) : Inv s' where
  single := hsingle
  live := hlive
  once := hp.refreshes ▸ h.once
  fresh t ht := by
    obtain ⟨hwaiting, hversion⟩ := hp.waiting t ht
    have hfresh := h.fresh t hwaiting
    refine ⟨?_, fun hnone hok => ?_⟩
    · rw [hp.refreshes, hversion]
      exact hfresh.read
    rw [hp.refreshes] at hnone
    rw [hp.lastRefresh] at hok
    obtain ⟨e, loaded, he, hinner, hdata⟩ := hfresh.loaded hnone hok
    exact ⟨e, loaded, hp.engines ▸ he, hinner, hdata.trans hversion.symm⟩

theorem Inv.commit (h : Inv s) (tables : Db) (changes : List TenantId)
    (hguard : s.undisturbed (.commit tables changes) = true) :
    Inv (s.step env (.commit tables changes)) := by
  refine h.passes ⟨rfl, rfl, rfl, fun t ht => ?_⟩ h.single h.live
  -- The tenants of the changes wait; there are none if the listener is not connected.
  obtain ⟨hwaiting, hchanges⟩ : t ∉ s.waiting ∧ t ∉ changes := by
    simp only [step, waiting, List.mem_append, not_or] at ht ⊢
    simp only [undisturbed, Bool.or_eq_true, List.isEmpty_iff, decide_eq_true_eq] at hguard
    by_cases hconn : s.connection = .listening
    · rw [if_pos hconn, List.mem_append, not_or] at ht
      exact ⟨⟨ht.1.1, ht.2⟩, ht.1.2⟩
    rw [if_neg hconn] at ht
    rw [hguard.resolve_right hconn]
    exact ⟨ht, List.not_mem_nil⟩
  refine ⟨hwaiting, ?_⟩
  simp only [step, Db.snapshotVersion, find?_bumpPolicySnapshot hchanges]

theorem Inv.begin (h : Inv s) (env : PushEnv) {tenant : TenantId} (ok : Bool)
    (hnone : ∀ r ∈ s.refreshes, r.1 ≠ tenant) (hdb : s'.db = s.db)
    (hengines : s'.engines = s.engines)
    (hwaiting : ∀ t, t ≠ tenant → t ∉ s'.waiting → t ∉ s.waiting)
    (hrefreshes : s'.refreshes.Perm (if ok then
      (tenant, loadSnapshot env.tz env.decode s.db tenant) :: s.refreshes else s.refreshes))
    (hlast : s'.lastRefresh = if ok then s.lastRefresh
      else Function.update s.lastRefresh tenant (some false))
    (hsingle : s'.drainers.length ≤ 1) (hlive : s'.connection ≠ .down → s'.drainers ≠ []) :
    Inv s' where
  single := hsingle
  live := hlive
  once := by
    refine (hrefreshes.map Prod.fst).nodup_iff.mpr ?_
    cases ok with
    | false => exact h.once
    | true =>
      refine List.nodup_cons.mpr ⟨fun hmem => ?_, h.once⟩
      obtain ⟨r, hr, htenant⟩ := List.mem_map.mp hmem
      exact hnone r hr htenant
  fresh t ht := by
    by_cases htenant : t = tenant
    · subst htenant
      refine ⟨fun r hr heq => ?_, fun hnone' hok => ?_⟩
      · -- Only the refresh that has just read is of this tenant.
        cases ok with
        | false => exact absurd heq (hnone r (hrefreshes.mem_iff.mp hr))
        | true =>
          rcases List.mem_cons.mp (hrefreshes.mem_iff.mp hr) with rfl | hold
          · rw [hdb]
            rfl
          · exact absurd heq (hnone r hold)
      · cases ok with
        | false =>
          rw [hlast, if_neg Bool.false_ne_true, Function.update_self] at hok
          cases hok
        | true => exact absurd rfl (hnone' _ (hrefreshes.mem_iff.mpr List.mem_cons_self))
    · have hfresh := h.fresh t (hwaiting t htenant ht)
      have hsub : ∀ r, r.1 = t → (r ∈ s'.refreshes ↔ r ∈ s.refreshes) := by
        intro r hr
        rw [hrefreshes.mem_iff]
        cases ok with
        | false => rfl
        | true =>
          refine List.mem_cons.trans ⟨fun hmem => hmem.resolve_left ?_, .inr⟩
          rintro rfl
          exact htenant hr.symm
      refine ⟨fun r hr heq => ?_, fun hnone' hok => ?_⟩
      · rw [hdb]
        exact hfresh.read r ((hsub r heq).mp hr) heq
      have hlast' : s'.lastRefresh t = s.lastRefresh t := by
        rw [hlast]
        split
        · rfl
        · exact Function.update_of_ne htenant ..
      obtain ⟨e, loaded, he, hinner, hdata⟩ := hfresh.loaded
        (fun r hr heq => hnone' r ((hsub r heq).mpr hr) heq) (hlast' ▸ hok)
      exact ⟨e, loaded, hengines ▸ he, hinner, hdb ▸ hdata⟩

theorem Inv.finish (h : Inv s) {r : Refresh} (now : ℤ) (hdb : s'.db = s.db)
    (hengines : s'.engines = s.engines) (hwaiting : s'.waiting = s.waiting)
    (hlast : s'.lastRefresh = s.lastRefresh) (hrefreshes : s.refreshes.Perm (r :: s'.refreshes))
    (hsingle : s'.drainers.length ≤ 1) (hlive : s'.connection ≠ .down → s'.drainers ≠ []) :
    Inv (s'.finish env r now) := by
  have hnodup : r.1 ∉ s'.refreshes.map Prod.fst ∧ (s'.refreshes.map Prod.fst).Nodup :=
    List.nodup_cons.mp ((hrefreshes.map Prod.fst).nodup_iff.mp h.once)
  refine ⟨hsingle, hlive, hnodup.2, fun t ht => ?_⟩
  have hfresh := h.fresh t (hwaiting ▸ ht)
  by_cases htenant : t = r.1
  · subst htenant
    refine ⟨fun r' hr' heq => ?_, fun _ hok => ?_⟩
    · exact absurd (List.mem_map.mpr ⟨r', hr', heq⟩) hnodup.1
    have hisOk : (loadEngine env s'.engines r.1 r.2 now).2.isOk = true := by
      simpa [Listener.finish] using hok
    obtain ⟨e, loaded, he, hinner, hdata⟩ := loadEngine_of_isOk hisOk
    have hread := hfresh.read r (hrefreshes.mem_iff.mpr List.mem_cons_self) rfl
    refine ⟨e, loaded, he, hinner, ?_⟩
    show loaded.data.version = s'.db.snapshotVersion r.1
    rw [hdata, hdb]
    exact hread
  · refine ⟨fun r' hr' heq => ?_, fun hnone hok => ?_⟩
    · show r'.2.version = s'.db.snapshotVersion t
      rw [hdb]
      exact hfresh.read r' (hrefreshes.mem_iff.mpr (List.mem_cons_of_mem _ hr')) heq
    have hnone' : ∀ r' ∈ s.refreshes, r'.1 ≠ t := by
      intro r' hr'
      rcases List.mem_cons.mp (hrefreshes.mem_iff.mp hr') with rfl | hold
      · exact Ne.symm htenant
      · exact hnone r' hold
    have hok' : s.lastRefresh t = some true := by
      rw [← hlast, ← hok]
      exact (Function.update_of_ne htenant ..).symm
    obtain ⟨e, loaded, he, hinner, hdata⟩ := hfresh.loaded hnone' hok'
    refine ⟨e, loaded, ?_, hinner, ?_⟩
    · rw [← he, ← hengines]
      exact loadEngine_of_ne env s'.engines htenant r.2 now
    show loaded.data.version = s'.db.snapshotVersion t
    rw [hdb]
    exact hdata

/-! ### The drain task -/

theorem mem_waiting_insert (now : ℕ)
    (h : t = tenant ∨ t ∈ d.waiting) : t ∈ (d.insert tenant now).waiting := by
  simp only [Drainer.waiting, Drainer.insert, List.map_cons, List.cons_append, List.mem_cons,
    List.mem_append] at h ⊢
  by_cases heq : t = tenant
  · exact .inl heq
  refine .inr ((h.resolve_left heq).imp_left fun hmem => ?_)
  obtain ⟨entry, hentry, rfl⟩ := List.mem_map.mp hmem
  exact List.mem_map.mpr ⟨entry, List.mem_filter.mpr ⟨hentry, by simpa using heq⟩, rfl⟩

theorem mem_waiting_tick {t : TenantId} (now : ℕ) (h : t ∈ d.waiting) :
    t ∈ (d.tick now).waiting := by
  unfold Drainer.tick
  split
  · rename_i hidle
    simp only [Drainer.waiting, List.mem_append, List.isEmpty_iff.mp hidle.1, List.not_mem_nil,
      or_false] at h ⊢
    obtain ⟨entry, hentry, rfl⟩ := List.mem_map.mp h
    by_cases hdue : now - entry.2 ≥ DEBOUNCE
    · exact .inr (List.mem_map.mpr ⟨entry, List.mem_filter.mpr ⟨hentry, by simpa using hdue⟩, rfl⟩)
    · exact .inl (List.mem_map.mpr ⟨entry, List.mem_filter.mpr ⟨hentry, by simpa using hdue⟩, rfl⟩)
  · exact h

theorem running_tick (d : Drainer) (now : ℕ) : (d.tick now).running = d.running := by
  unfold Drainer.tick
  split <;> rfl

theorem Inv.drainers_eq (h : Inv s) {i : ℕ} (hd : s.drainers[i]? = some d) :
    s.drainers = [d] ∧ i = 0 := by
  have hsingle := h.single
  rcases hs : s.drainers with _ | ⟨d', _ | ⟨d'', rest⟩⟩
  · simp [hs] at hd
  · cases i with
    | zero => simp_all
    | succ i => simp [hs] at hd
  · simp [hs] at hsingle

/-! ### Every step and every run -/

theorem Inv.step (h : Inv s) (e : ListenerEvent) (hguard : s.undisturbed e = true) :
    Inv (s.step env e) := by
  cases e with
  | commit tables changes => exact h.commit tables changes hguard
  | connect =>
    simp only [Listener.step]
    split
    · have hnone : s.drainers = [] := List.isEmpty_iff.mp hguard
      refine h.passes ⟨?_, rfl, rfl, fun t ht => ⟨?_, rfl⟩⟩ (by simp [hnone]) fun _ => by simp
      · simp [refreshes, Drainer.new]
      · simpa [waiting, Drainer.new, Drainer.waiting] using ht
    · exact h
  | lose kept =>
    simp only [Listener.step]
    split
    · rename_i hconn
      have hkept : s.notifications.take kept = s.notifications :=
        List.take_of_length_le (by simpa [undisturbed] using hguard)
      refine h.passes ⟨rfl, rfl, rfl, fun t ht => ⟨?_, rfl⟩⟩ h.single
        fun _ => h.live (by simp [hconn])
      simpa [waiting, hkept] using ht
    · exact h
  | reconnect =>
    simp only [Listener.step]
    split
    · rename_i hconn
      exact h.passes ⟨rfl, rfl, rfl, fun t ht => ⟨ht, rfl⟩⟩ h.single
        fun _ => h.live (by simp [hconn])
    · exact h
  | fail =>
    have hnone : s.notifications = [] := List.isEmpty_iff.mp hguard
    refine h.passes ⟨rfl, rfl, rfl, fun t ht => ⟨?_, rfl⟩⟩ h.single fun hne => absurd rfl hne
    simpa [Listener.step, waiting, hnone] using ht
  | receive =>
    simp only [Listener.step]
    split
    · rename_i tenant notifications d drainers hn hd
      refine h.passes ⟨?_, rfl, rfl, fun t ht => ⟨fun hold => ht ?_, rfl⟩⟩
        (by simpa [hd] using h.single) fun _ => by simp
      · simp [refreshes, hd, Drainer.insert, List.filterMap_cons]
      simp only [waiting, hn, hd, List.flatMap_cons, List.mem_append, List.mem_cons] at hold ⊢
      rcases hold with (rfl | hold) | hold | hold
      · exact .inr (.inl (mem_waiting_insert s.clock (.inl rfl)))
      · exact .inl hold
      · exact .inr (.inl (mem_waiting_insert s.clock (.inr hold)))
      · exact .inr (.inr hold)
    · exact h
  | elapse d => exact h.passes ⟨rfl, rfl, rfl, fun t ht => ⟨ht, rfl⟩⟩ h.single h.live
  | tick i =>
    simp only [Listener.step]
    split
    · rename_i d hd
      obtain ⟨hs, rfl⟩ := h.drainers_eq hd
      refine h.passes ⟨?_, rfl, rfl, fun t ht => ⟨fun hold => ht ?_, rfl⟩⟩ (by simp [hs])
        fun _ => by simp [hs]
      · simp [refreshes, hs, running_tick, List.filterMap_cons]
      simp only [waiting, hs, List.set_cons_zero, List.flatMap_cons, List.flatMap_nil,
        List.append_nil, List.mem_append] at hold ⊢
      exact hold.imp_right (mem_waiting_tick s.clock)
    · exact h
  | read i tenant ok =>
    have hnone : ∀ r ∈ s.refreshes, r.1 ≠ tenant := by simpa [undisturbed] using hguard
    simp only [Listener.step]
    split
    · rename_i d hd
      obtain ⟨hs, rfl⟩ := h.drainers_eq hd
      split
      · rename_i hdue
        have hidle : d.running = none := Option.isNone_iff_eq_none.mp hdue.1
        have hkeeps : ∀ t, t ≠ tenant → t ∈ d.due → t ∈ d.due.erase tenant := fun t hne hmem =>
          (List.mem_erase_of_ne hne).mpr hmem
        have hwaits : ∀ t, t ≠ tenant → t ∈ s.waiting →
            t ∈ s.notifications ∨ t ∈ d.pending.map Prod.fst ∨ t ∈ d.due.erase tenant := by
          intro t hne hold
          simp only [waiting, hs, List.flatMap_cons, List.flatMap_nil, List.append_nil,
            List.mem_append, Drainer.waiting] at hold
          exact hold.imp_right fun hold => hold.imp_right (hkeeps t hne)
        split
        · rename_i hok
          subst hok
          refine h.begin env true hnone rfl rfl (fun t hne ht hold => ht ?_) ?_ rfl
            (by simp [hs]) fun _ => by simp [hs]
          · simpa [waiting, hs, Drainer.waiting] using hwaits t hne hold
          · simp [refreshes, hs, hidle]
        rename_i hok
        simp only [Bool.not_eq_true] at hok
        subst hok
        refine h.begin env false hnone rfl rfl (fun t hne ht hold => ht ?_) ?_ rfl
          (by simp [hs]) fun _ => by simp [hs]
        · simpa [waiting, hs, Drainer.waiting] using hwaits t hne hold
        · simp [refreshes, hs, hidle]
      · exact h
    · exact h
  | load i now =>
    simp only [Listener.step]
    split
    · rename_i d hd
      obtain ⟨hs, rfl⟩ := h.drainers_eq hd
      split
      · rename_i r hr
        refine h.finish now rfl rfl ?_ rfl ?_ (by simp [hs]) fun _ => by simp [hs]
        · simp [waiting, hs, Drainer.waiting]
        · simp [refreshes, hs, hr]
      · exact h
    · exact h
  | otherRead tenant ok =>
    have hnone : ∀ r ∈ s.refreshes, r.1 ≠ tenant := by simpa [undisturbed] using hguard
    cases ok with
    | false => exact h.begin env false hnone rfl rfl (fun t _ ht => ht) .rfl rfl h.single h.live
    | true =>
      refine h.begin env true hnone rfl rfl (fun t _ ht => ht) ?_ rfl h.single h.live
      exact List.perm_middle
  | otherLoad n now =>
    simp only [Listener.step]
    split
    · rename_i r hr
      refine h.finish now rfl rfl rfl rfl ?_ h.single h.live
      have hperm : s.others.Perm (r :: s.others.eraseIdx n) := by
        obtain ⟨hn, rfl⟩ := List.getElem?_eq_some_iff.mp hr
        exact (List.getElem_cons_eraseIdx_perm hn).symm
      exact (hperm.append_left _).trans List.perm_middle
    · exact h

/-- A refresh that ended and did not fail has succeeded. -/
theorem Inv.noChangeLost (h : Inv s) (hrefreshed : s.EachRefreshed) : s.NoChangeLost := by
  refine ⟨fun _ t ht hwaiting hnone hlast => (h.fresh t hwaiting).loaded hnone ?_, h.single⟩
  match hs : s.lastRefresh t with
  | none => exact absurd hs (hrefreshed t ht)
  | some false => exact absurd hs hlast
  | some true => rfl

/-- Over every undisturbed run no change of a tenant is lost that has been refreshed once. -/
theorem noChangeLost_of_undisturbed (env : PushEnv) (db : Db) (events : List ListenerEvent)
    (h : Guarded (step env) (fun s e => s.undisturbed e = true) (start db) events)
    (hrefreshed : (run (step env) (start db) events).EachRefreshed) :
    (run (step env) (start db) events).NoChangeLost :=
  (Guarded.invariant (fun _ e hs => hs.step e) (inv_start db) h).noChangeLost hrefreshed

def exampleTables : Db := ⟨[7], [], [], [], [], [], [], [⟨7, 1⟩], 0⟩

def exampleEnv : PushEnv := ⟨utc, fun _ => none⟩

def pickedUp : List ListenerEvent :=
  [.connect, .commit exampleTables [7], .receive, .elapse 250, .tick 0, .read 0 7 true, .load 0 0]

/-- A second change, then a connection that is lost and restored. -/
def settledChange : List ListenerEvent :=
  pickedUp ++ [.otherRead 7 true, .commit exampleTables [7], .otherLoad 0 0, .receive, .lose 0,
    .reconnect, .elapse 250, .tick 0, .read 0 7 true, .load 0 0]

/-- Version 3 is loaded at the end. -/
theorem noChangeLost_settledChange :
    let s := run (step exampleEnv) (start exampleTables) settledChange
    s.connection = .listening ∧ s.waiting = [] ∧ s.db.snapshotVersion 7 = 3 ∧
      s.lastRefresh 7 = some true ∧ s.NoChangeLost := by
  have htenants : (run (step exampleEnv) (start exampleTables) settledChange).db.tenants = [7] := by
    decide +kernel
  have hlast : (run (step exampleEnv) (start exampleTables) settledChange).lastRefresh 7 =
      some true := by
    decide +kernel
  have hrefreshed : (run (step exampleEnv) (start exampleTables) settledChange).EachRefreshed := by
    intro t ht
    rw [htenants, List.mem_singleton] at ht
    rw [ht, hlast]
    exact Option.some_ne_none true
  exact ⟨by decide +kernel, by decide +kernel, by decide +kernel, hlast,
    noChangeLost_of_undisturbed exampleEnv exampleTables settledChange (by decide +kernel)
      hrefreshed⟩

/-- A change that is committed while the listener reconnects. -/
def missedChange : List ListenerEvent :=
  pickedUp ++ [.lose 0, .commit exampleTables [7], .reconnect]

/-- A refresh of `window_ticker` that has read before a change and loads after it. -/
def overtakenRefresh : List ListenerEvent :=
  [.connect, .otherRead 7 true, .commit exampleTables [7], .receive, .elapse 250, .tick 0,
   .read 0 7 true, .load 0 0, .otherLoad 0 0]

def loadedVersion (s : Listener) (t : TenantId) : Option UInt64 :=
  ((s.engines t).bind Engine.inner).map fun loaded => loaded.data.version

theorem Loaded.version {t : TenantId} (h : s.Loaded t) :
    s.loadedVersion t = some (s.db.snapshotVersion t) := by
  obtain ⟨e, loaded, he, hinner, hversion⟩ := h
  simp [loadedVersion, he, hinner, hversion]

/-- The engine was not loaded from the current version, although nothing is left to do. -/
theorem not_noChangeLost {t : TenantId} (hconn : s.connection = .listening) (ht : t ∈ s.db.tenants)
    (hwaiting : t ∉ s.waiting) (hnone : ∀ r ∈ s.refreshes, r.1 ≠ t)
    (hlast : s.lastRefresh t ≠ some false)
    (hversion : s.loadedVersion t ≠ some (s.db.snapshotVersion t)) : ¬ s.NoChangeLost :=
  fun h => hversion (h.1 hconn t ht hwaiting hnone hlast).version

/-- In the first and the third run nothing is left to do, but the engine is one version behind. In
the second run an error of the listener leaves two drain tasks. In the last one the tenant, which
exists since before control was started, has no engine. -/
theorem changes_lost :
    ¬ (run (step exampleEnv) (start exampleTables) missedChange).NoChangeLost ∧
    ¬ (run (step exampleEnv) (start exampleTables) [.connect, .fail, .connect]).NoChangeLost ∧
    ¬ (run (step exampleEnv) (start exampleTables) overtakenRefresh).NoChangeLost ∧
    ¬ (run (step exampleEnv) (start exampleTables) [.connect]).NoChangeLost := by
  refine ⟨?_, fun h => absurd h.2 (by decide +kernel), ?_, ?_⟩ <;>
    exact not_noChangeLost (t := 7) (by decide +kernel) (by decide +kernel) (by decide +kernel)
      (by decide +kernel) (by decide +kernel) (by decide +kernel)

end Avon.Control.Listener
