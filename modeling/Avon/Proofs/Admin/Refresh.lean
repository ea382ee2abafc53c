import Avon.Admin.Refresh

/-!
# When the rotation of refresh tokens is safe

A token is dead once it was exchanged, or once a reuse was detected after it was issued. As long as
requests of one user do not overlap and no statement raises, no request with a dead token gets past
the check (`Inv`). Otherwise it may (`rotation_unsafe`).
-/

set_option autoImplicit false

namespace Avon.Admin.Refreshes

open Avon.Lib.Run
open Statement (drawn)

/-! ### The log -/

def Dead (log : List Entry) (jti : Jti) : Prop :=
  .accepted jti ∈ log ∨ ∃ userId, List.Sublist [.detected userId, .issued jti userId] log

section
variable {log : List Entry} {jti : Jti} {jti' : Jti} {userId : UserId}

theorem dead_refused {detail : String} : Dead (.refused jti' detail :: log) jti ↔ Dead log jti := by
  simp [Dead, List.sublist_cons_iff]

theorem dead_issued : Dead (.issued jti' userId :: log) jti ↔ Dead log jti := by
  simp [Dead, List.sublist_cons_iff]

theorem dead_accepted : Dead (.accepted jti' :: log) jti ↔ jti = jti' ∨ Dead log jti := by
  simp [Dead, List.sublist_cons_iff, or_assoc]

theorem dead_detected :
    Dead (.detected userId :: log) jti ↔ .issued jti userId ∈ log ∨ Dead log jti := by
  simp only [Dead, List.mem_cons, reduceCtorEq, false_or, List.sublist_cons_iff, List.cons.injEq,
    Entry.detected.injEq]
  grind

theorem RotationSafe.cons (h : RotationSafe log) {e : Entry}
    (he : ∀ jti, e = .accepted jti → ¬ Dead log jti) : RotationSafe (e :: log) := by
  refine ⟨fun jti hsub => ?_, fun jti userId hsub => ?_⟩
  · rcases List.sublist_cons_iff.mp hsub with hold | ⟨rest, heq, hrest⟩
    · exact h.1 jti hold
    · obtain ⟨rfl, rfl⟩ := List.cons.inj heq
      exact he jti rfl (.inl (List.singleton_sublist.mp hrest))
  rcases List.sublist_cons_iff.mp hsub with hold | ⟨rest, heq, hrest⟩
  · exact h.2 jti userId hold
  · obtain ⟨rfl, rfl⟩ := List.cons.inj heq
    exact he jti rfl (.inr ⟨userId, hrest⟩)

end

/-! ### The invariant -/

/-- A request that got past the check has a token that is not dead, and a new id. -/
structure RequestOk (rows : List RefreshRow) (log : List Entry) (r : RefreshRequest) : Prop where
  issued : .issued r.token.jti r.token.userId ∈ log
  family : ∀ userId, r.statement = .revokeFamily userId → userId = r.token.userId
  alive : r.statement.drawn.isSome → ¬ Dead log r.token.jti
  fresh : ∀ jti ∈ r.statement.drawn, ∀ userId, .issued jti userId ∉ log
  revoked : ∀ jti, r.statement = .insertToken jti →
    ∀ row ∈ rows, row.jti = r.token.jti → row.revokedAt.isSome

structure Inv (rows : List RefreshRow) (requests : List RefreshRequest) (log : List Entry) :
    Prop where
  rowsIssued : ∀ row ∈ rows, .issued row.jti row.userId ∈ log
  owner : ∀ jti u u', .issued jti u ∈ log → .issued jti u' ∈ log → u = u'
  accepted : ∀ jti, .accepted jti ∈ log → ∃ u, .issued jti u ∈ log
  dead : ∀ row ∈ rows, Dead log row.jti → row.revokedAt.isSome
  requestsOk : ∀ r ∈ requests, RequestOk rows log r
  apart : (requests.map fun r => r.token.userId).Nodup
  distinct : (requests.filterMap fun r => r.statement.drawn).Nodup
  safe : RotationSafe log

section
variable {rows : List RefreshRow} {requests rest : List RefreshRequest} {log : List Entry}

theorem inv_start : Inv [] [] [] where
  rowsIssued := List.forall_mem_nil _
  owner _ _ _ h := by cases h
  accepted _ h := by cases h
  dead := List.forall_mem_nil _
  requestsOk := List.forall_mem_nil _
  apart := List.nodup_nil
  distinct := List.nodup_nil
  safe := ⟨fun _ h => (by cases h), fun _ _ h => (by cases h)⟩

theorem Inv.perm (h : Inv rows requests log) (hp : requests.Perm rest) : Inv rows rest log :=
  { h with
    requestsOk := fun r hr => h.requestsOk r (hp.mem_iff.mpr hr)
    apart := (hp.map _).nodup_iff.mp h.apart
    distinct := (hp.filterMap _).nodup_iff.mp h.distinct }

variable {r : RefreshRequest} {jti : Jti}

theorem Inv.issued_of_dead (h : Inv rows requests log) (hdead : Dead log jti) :
    ∃ u, .issued jti u ∈ log := by
  rcases hdead with hacc | ⟨u, hsub⟩
  · exact h.accepted jti hacc
  · exact ⟨u, hsub.subset (by simp)⟩

theorem Inv.tail (h : Inv rows (r :: rest) log) : Inv rows rest log :=
  { h with
    requestsOk := fun r' hr' => h.requestsOk r' (List.mem_cons_of_mem _ hr')
    apart := (List.nodup_cons.mp h.apart).2
    distinct := h.distinct.sublist ((List.sublist_cons_self r rest).filterMap _) }

theorem Inv.cons (h : Inv rows rest log) (hr : RequestOk rows log r)
    (hapart : ∀ r' ∈ rest, r'.token.userId ≠ r.token.userId)
    (hdistinct : ∀ jti ∈ r.statement.drawn, ∀ r' ∈ rest, r'.statement.drawn ≠ some jti) :
    Inv rows (r :: rest) log := by
  refine { h with requestsOk := List.forall_mem_cons.mpr ⟨hr, h.requestsOk⟩, apart := ?_,
                  distinct := ?_ }
  · refine List.nodup_cons.mpr ⟨fun hmem => ?_, h.apart⟩
    obtain ⟨r', hr', heq⟩ := List.mem_map.mp hmem
    exact hapart r' hr' heq
  rw [List.filterMap_cons]
  cases hdrawn : r.statement.drawn with
  | none => exact h.distinct
  | some jti =>
    refine List.nodup_cons.mpr ⟨fun hmem => ?_, h.distinct⟩
    obtain ⟨r', hr', heq⟩ := List.mem_filterMap.mp hmem
    exact hdistinct jti hdrawn r' hr' heq

theorem Inv.others (h : Inv rows (r :: rest) log) :
    ∀ r' ∈ rest, r'.token.userId ≠ r.token.userId := by
  intro r' hr' heq
  exact (List.nodup_cons.mp h.apart).1 (List.mem_map.mpr ⟨r', hr', heq⟩)

theorem Inv.otherDraws (h : Inv rows (r :: rest) log)
    (hjti : r.statement.drawn = some jti) : ∀ r' ∈ rest, r'.statement.drawn ≠ some jti := by
  intro r' hr' heq
  have hdistinct := h.distinct
  rw [List.filterMap_cons, hjti] at hdistinct
  exact (List.nodup_cons.mp hdistinct).1 (List.mem_filterMap.mpr ⟨r', hr', heq⟩)

structure Revokes (f : RefreshRow → RefreshRow) : Prop where
  jti : ∀ row, (f row).jti = row.jti
  userId : ∀ row, (f row).userId = row.userId
  revoked : ∀ row, row.revokedAt.isSome → (f row).revokedAt.isSome

/-- The updates of the code: some rows get a time, and the token that replaces them or none. -/
theorem revokes_ite (p : RefreshRow → Prop) [DecidablePred p] (now : ℤ)
    (replaces : RefreshRow → Option Jti) :
    Revokes fun row => if p row then { row with revokedAt := some now, replacedBy := replaces row }
      else row := by
  refine ⟨fun row => ?_, fun row => ?_, fun row hrow => ?_⟩ <;> split
  all_goals first | rfl | exact hrow

section
variable (h : Inv rows requests log)
include h

theorem Inv.mapRows {f : RefreshRow → RefreshRow} (hf : Revokes f) :
    Inv (rows.map f) requests log := by
  refine { h with rowsIssued := ?_, dead := ?_, requestsOk := fun r hr => ?_ }
  · refine List.forall_mem_map.mpr fun row hrow => ?_
    rw [hf.jti, hf.userId]
    exact h.rowsIssued row hrow
  · refine List.forall_mem_map.mpr fun row hrow hdead => hf.revoked row (h.dead row hrow ?_)
    rwa [hf.jti] at hdead
  have hok := h.requestsOk r hr
  refine { hok with revoked := fun jti hstatement => ?_ }
  refine List.forall_mem_map.mpr fun row hrow heq => hf.revoked row ?_
  rw [hf.jti] at heq
  exact hok.revoked jti hstatement row hrow heq

/-- An entry is added to the log. What it kills has no row that is still good and no request that
is past the check. -/
theorem Inv.push {e : Entry}
    (hissued : ∀ jti u, e = .issued jti u →
      (∀ u, .issued jti u ∉ log) ∧ ∀ r ∈ requests, r.statement.drawn ≠ some jti)
    (haccepted : ∀ jti, e = .accepted jti → ¬ Dead log jti ∧ ∃ u, .issued jti u ∈ log)
    (hrows : ∀ row ∈ rows, Dead (e :: log) row.jti → row.revokedAt.isSome ∨ Dead log row.jti)
    (hrequests : ∀ r ∈ requests, Dead (e :: log) r.token.jti → Dead log r.token.jti) :
    Inv rows requests (e :: log) where
  rowsIssued row hrow := List.mem_cons_of_mem _ (h.rowsIssued row hrow)
  owner jti u u' hu hu' := by
    rcases List.mem_cons.mp hu with rfl | hu <;> rcases List.mem_cons.mp hu' with heq | hu'
    · exact (Entry.issued.inj heq).2.symm
    · exact absurd hu' ((hissued jti u rfl).1 u')
    · exact absurd hu ((hissued jti u' heq.symm).1 u)
    · exact h.owner jti u u' hu hu'
  accepted jti hjti := by
    have hold : ∃ u, .issued jti u ∈ log :=
      (List.mem_cons.mp hjti).elim (fun heq => (haccepted jti heq.symm).2) (h.accepted jti)
    exact hold.imp fun _ => List.mem_cons_of_mem _
  dead row hrow hdead := (hrows row hrow hdead).elim id (h.dead row hrow)
  requestsOk r hr := by
    have hok := h.requestsOk r hr
    refine { hok with
      issued := List.mem_cons_of_mem _ hok.issued
      alive := fun hdrawn hdead => hok.alive hdrawn (hrequests r hr hdead)
      fresh := fun jti hjti u hu => ?_ }
    rcases List.mem_cons.mp hu with heq | hu
    · exact (hissued jti u heq.symm).2 r hr hjti
    · exact hok.fresh jti hjti u hu
  apart := h.apart
  distinct := h.distinct
  safe := h.safe.cons fun jti heq => (haccepted jti heq).1

theorem Inv.refused (jti : Jti) (detail : String) :
    Inv rows requests (.refused jti detail :: log) :=
  h.push (by simp) (by simp) (fun _ _ hdead => .inr (dead_refused.mp hdead))
    fun _ _ => dead_refused.mp

/-- A reuse is detected: the rows of the user are revoked, and no request of the user is on. -/
theorem Inv.detected {userId : UserId}
    (hrows : ∀ row ∈ rows, row.userId = userId → row.revokedAt.isSome)
    (hnone : ∀ r ∈ requests, r.token.userId ≠ userId) :
    Inv rows requests (.detected userId :: log) := by
  refine h.push (by simp) (by simp) (fun row hrow hdead => ?_) fun r hr hdead => ?_
  · refine (dead_detected.mp hdead).imp_left fun hissued => ?_
    exact hrows row hrow (h.owner row.jti _ _ (h.rowsIssued row hrow) hissued)
  · refine (dead_detected.mp hdead).resolve_left fun hissued => ?_
    exact hnone r hr (h.owner r.token.jti _ _ (h.requestsOk r hr).issued hissued)

/-- A token is exchanged: it was not dead, its row is revoked, and no other request has it. -/
theorem Inv.exchange {token : Token}
    (hissued : .issued token.jti token.userId ∈ log) (halive : ¬ Dead log token.jti)
    (hrows : ∀ row ∈ rows, row.jti = token.jti → row.revokedAt.isSome)
    (hnone : ∀ r ∈ requests, r.token.userId ≠ token.userId) :
    Inv rows requests (.accepted token.jti :: log) := by
  refine h.push (by simp) (fun jti heq => ?_) (fun row hrow hdead => ?_) fun r hr hdead => ?_
  · cases heq
    exact ⟨halive, _, hissued⟩
  · exact (dead_accepted.mp hdead).imp_left (hrows row hrow)
  · refine (dead_accepted.mp hdead).resolve_left fun heq => ?_
    have hsame : Entry.issued token.jti r.token.userId ∈ log := heq ▸ (h.requestsOk r hr).issued
    exact hnone r hr (h.owner token.jti _ _ hsame hissued)

theorem Inv.issue (token : Token) (hnew : ∀ u, .issued token.jti u ∉ log)
    (hdrawn : ∀ r ∈ requests, r.statement.drawn ≠ some token.jti) :
    Inv rows requests (.issued token.jti token.userId :: log) := by
  refine h.push (fun jti u heq => ?_) (by simp) (fun _ _ hdead => .inr (dead_issued.mp hdead))
    fun _ _ => dead_issued.mp
  cases heq
  exact ⟨hnew, hdrawn⟩

theorem Inv.insertRow {row : RefreshRow}
    (hissued : .issued row.jti row.userId ∈ log) (halive : ¬ Dead log row.jti)
    (hnone : ∀ r ∈ requests, r.token.jti ≠ row.jti) : Inv (row :: rows) requests log := by
  refine { h with
    rowsIssued := List.forall_mem_cons.mpr ⟨hissued, h.rowsIssued⟩
    dead := List.forall_mem_cons.mpr ⟨fun hdead => absurd hdead halive, h.dead⟩
    requestsOk := fun r hr => ?_ }
  have hok := h.requestsOk r hr
  refine { hok with revoked := fun jti hstatement => ?_ }
  exact List.forall_mem_cons.mpr
    ⟨fun heq => absurd heq.symm (hnone r hr), hok.revoked jti hstatement⟩

theorem Inv.issueRow (row : RefreshRow) (hnew : ∀ u, .issued row.jti u ∉ log)
    (hdrawn : ∀ r ∈ requests, r.statement.drawn ≠ some row.jti) :
    Inv (row :: rows) requests (.issued row.jti row.userId :: log) := by
  refine (h.issue ⟨row.jti, row.userId⟩ hnew hdrawn).insertRow List.mem_cons_self
    (fun hdead => ?_) fun r hr heq => ?_
  · obtain ⟨u, hu⟩ := h.issued_of_dead (dead_issued.mp hdead)
    exact hnew u hu
  have hissued := (h.requestsOk r hr).issued
  rw [heq] at hissued
  exact hnew _ hissued

end

/-! ### One statement -/

/-- The invariant after a statement of a request, by what the statement leads to. -/
def InvAfter (rest : List RefreshRequest) (log : List Entry) (token : Token)
    (rows : List RefreshRow) : Outcome → Prop
  | .next statement => Inv rows (⟨token, statement⟩ :: rest) log
  | .refuse _ => Inv rows rest log
  | .reuse userId => Inv rows rest (.detected userId :: log)
  | .respond newJti =>
    Inv rows rest (.issued newJti token.userId :: .accepted token.jti :: log)
  | .raise => False

theorem Inv.runStatement (refreshTokenDays : ℤ) {token : Token} {statement : Statement} {i : Inputs}
    (h : Inv rows (⟨token, statement⟩ :: rest) log) (hnew : ∀ u, .issued i.newJti u ∉ log)
    (hdrawn : ∀ r ∈ rest, r.statement.drawn ≠ some i.newJti) :
    InvAfter rest log token (execute refreshTokenDays rows token i statement).1
      (execute refreshTokenDays rows token i statement).2 := by
  have hok := h.requestsOk _ List.mem_cons_self
  cases statement with
  | selectToken =>
    simp only [execute]
    cases hfind : rows.find? fun row => row.jti = token.jti with
    | none => exact h.tail
    | some row =>
      have hrow := List.mem_of_find?_eq_some hfind
      have hjti : row.jti = token.jti := by simpa using List.find?_some hfind
      have hissued : Entry.issued token.jti row.userId ∈ log := hjti ▸ h.rowsIssued row hrow
      by_cases hrevoked : row.revokedAt.isSome = true
      · simp only [if_pos hrevoked]
        refine h.tail.cons ⟨hok.issued, fun userId heq => ?_, ?_, ?_, ?_⟩ h.others ?_
        · cases heq
          exact h.owner token.jti _ _ hissued hok.issued
        all_goals simp [drawn]
      simp only [if_neg hrevoked]
      split
      · exact h.tail
      refine h.tail.cons ⟨hok.issued, ?_, fun _ hdead => ?_, ?_, ?_⟩ h.others ?_
      · simp
      · exact hrevoked (h.dead row hrow (hjti ▸ hdead))
      · simpa [drawn] using hnew
      · simp
      · simpa [drawn] using hdrawn
  | revokeFamily userId =>
    have hfamily : userId = token.userId := hok.family userId rfl
    subst hfamily
    refine (h.tail.mapRows (revokes_ite _ i.now (·.replacedBy))).detected ?_ h.others
    refine List.forall_mem_map.mpr fun row _ => ?_
    cases hat : row.revokedAt <;> by_cases hu : row.userId = token.userId <;> simp [hat, hu]
  | getUser newJti =>
    simp only [execute]
    split
    · exact h.tail.cons ⟨hok.issued, by simp, fun _ => hok.alive rfl, hok.fresh, by simp⟩ h.others
        fun jti hjti => h.otherDraws hjti
    · exact h.tail
  | rotate newJti =>
    have hrevokes := revokes_ite (fun row => row.jti = token.jti) i.now fun _ => some newJti
    refine (h.tail.mapRows hrevokes).cons
      ⟨hok.issued, by simp, fun _ => hok.alive rfl, hok.fresh, fun _ _ => ?_⟩ h.others
      fun jti hjti => h.otherDraws hjti
    refine List.forall_mem_map.mpr fun row _ heq => ?_
    rw [hrevokes.jti] at heq
    simp [heq]
  | insertToken newJti =>
    have hfresh := hok.fresh newJti rfl
    have hconflict : ¬ (rows.any fun row => row.jti = newJti) = true := by
      rw [List.any_eq_true]
      rintro ⟨row, hrow, heq⟩
      rw [decide_eq_true_eq] at heq
      exact hfresh row.userId (heq ▸ h.rowsIssued row hrow)
    simp only [execute, if_neg hconflict]
    have hexchange := h.tail.exchange hok.issued (hok.alive rfl) (hok.revoked newJti rfl) h.others
    exact hexchange.issueRow ⟨newJti, token.userId, i.now + refreshTokenSeconds _, none, none⟩
      (fun u hu => hfresh u (by simpa using hu)) (h.otherDraws rfl)

end

/-! ### Every step and every run -/

theorem not_used_iff {s : Refreshes} {jti : Jti} :
    jti ∉ s.used ↔ (∀ u, .issued jti u ∉ s.log) ∧
      ∀ r ∈ s.requests, r.statement.drawn ≠ some jti := by
  rw [used, List.mem_append, not_or]
  refine and_congr ?_ ?_
  · rw [List.mem_filterMap]
    constructor
    · intro h u hu
      exact h ⟨_, hu, rfl⟩
    rintro h ⟨e, he, heq⟩
    cases e with
    | issued jti' u =>
      cases heq
      exact h u he
    | detected | accepted | refused => cases heq
  · rw [List.mem_filterMap]
    grind

abbrev Ok (s : Refreshes) : Prop := Inv s.rows s.requests s.log

theorem InvAfter.proceed {s : Refreshes} {n : ℕ} (hlt : n < s.requests.length)
    {rows : List RefreshRow} {token : Token} {outcome : Outcome}
    (h : InvAfter (s.requests.eraseIdx n) s.log token rows outcome) :
    Ok ({ s with rows }.proceed n token outcome) := by
  cases outcome with
  | next statement => exact Inv.perm h (List.set_perm_cons_eraseIdx hlt _).symm
  | refuse detail => exact Inv.refused h token.jti detail
  | reuse userId => exact Inv.refused h token.jti _
  | respond newJti => exact h
  | raise => exact h.elim

theorem Ok.step {s : Refreshes} (h : Ok s) (refreshTokenDays : ℤ) (e : RefreshEvent)
    (hguard : s.orderly e = true) : Ok (s.step refreshTokenDays e) := by
  cases e with
  | login token now stored =>
    obtain ⟨hnew, hdrawn⟩ := not_used_iff.mp (of_decide_eq_true hguard)
    unfold Refreshes.step
    show Inv (if _ then _ else _) _ _
    split
    · exact h.issueRow ⟨token.jti, token.userId, now + refreshTokenSeconds _, none, none⟩ hnew
        hdrawn
    · exact h.issue token hnew hdrawn
  | request token decoded =>
    unfold Refreshes.step
    simp only
    split
    · rename_i hissued
      refine Inv.cons h ⟨hissued.2, ?_, ?_, ?_, ?_⟩ ?_ ?_
      · simp
      · simp [drawn]
      · simp [drawn]
      · simp
      · simpa [orderly] using hguard
      · simp [drawn]
    · exact h
  | statement n inputs raises =>
    rw [orderly, Bool.and_eq_true, Bool.not_eq_true', decide_eq_true_eq] at hguard
    obtain ⟨rfl, hused⟩ := hguard
    obtain ⟨hnew, hdrawn⟩ := not_used_iff.mp hused
    unfold Refreshes.step
    simp only
    split
    · exact h
    rename_i token statement hn
    obtain ⟨hlt, hget⟩ := List.getElem?_eq_some_iff.mp hn
    have hperm : s.requests.Perm (⟨token, statement⟩ :: s.requests.eraseIdx n) := by
      rw [← hget]
      exact (List.getElem_cons_eraseIdx_perm hlt).symm
    rw [if_neg Bool.false_ne_true]
    exact ((Inv.perm h hperm).runStatement refreshTokenDays hnew
      fun r hr => hdrawn r (List.mem_of_mem_eraseIdx hr)).proceed hlt
  | logout jti now =>
    exact Inv.mapRows h (revokes_ite (fun row => row.jti = jti) now (·.replacedBy))

/-- Over every orderly run, a token is exchanged once at most, and not after a detected reuse. -/
theorem rotationSafe_of_orderly (refreshTokenDays : ℤ) (events : List RefreshEvent)
    (h : Guarded (step refreshTokenDays) (fun s e => s.orderly e = true) start events) :
    RotationSafe (run (step refreshTokenDays) start events).log :=
  (Guarded.invariant (I := Ok) (fun _ e hs => hs.step refreshTokenDays e) inv_start h).safe

/-- Token 1 of user 5 is exchanged for token 2, then used again, and then token 2 is tried. User 6
logs in and refreshes meanwhile. -/
def orderlyReuse : List RefreshEvent :=
  [.login ⟨1, 5⟩ 0 true, .login ⟨10, 6⟩ 0 true, .request ⟨1, 5⟩ true, .request ⟨10, 6⟩ true,
   .statement 1 ⟨5, 2, none⟩ false, .statement 0 ⟨5, 11, none⟩ false,
   .statement 1 ⟨5, 90, some true⟩ false, .statement 1 ⟨5, 90, none⟩ false,
   .statement 1 ⟨5, 90, none⟩ false, .request ⟨1, 5⟩ true, .statement 0 ⟨6, 91, none⟩ false,
   .statement 0 ⟨6, 91, none⟩ false, .request ⟨2, 5⟩ true, .statement 0 ⟨7, 92, none⟩ false]

/-- The reuse is detected, token 2 is refused, and the rotation is safe. -/
theorem rotationSafe_orderlyReuse :
    let log := (run (step 7) start orderlyReuse).log
    Entry.accepted 1 ∈ log ∧ Entry.detected 5 ∈ log ∧ Entry.accepted 2 ∉ log ∧ RotationSafe log :=
  ⟨by decide +kernel, by decide +kernel, by decide +kernel,
    rotationSafe_of_orderly 7 orderlyReuse (by decide +kernel)⟩

/-- Two requests with token 1 pass the check one after the other, and then both rotate it. -/
def overlappingRequests : List RefreshEvent :=
  [.login ⟨1, 5⟩ 0 true, .request ⟨1, 5⟩ true, .request ⟨1, 5⟩ true,
   .statement 0 ⟨1, 2, none⟩ false, .statement 1 ⟨1, 3, none⟩ false,
   .statement 0 ⟨1, 90, some true⟩ false, .statement 0 ⟨1, 90, none⟩ false,
   .statement 0 ⟨1, 90, none⟩ false, .statement 0 ⟨1, 90, some true⟩ false,
   .statement 0 ⟨1, 90, none⟩ false, .statement 0 ⟨1, 90, none⟩ false]

def rotated : List RefreshEvent :=
  [.login ⟨1, 5⟩ 0 true, .request ⟨1, 5⟩ true, .statement 0 ⟨1, 2, none⟩ false,
   .statement 0 ⟨1, 90, some true⟩ false, .statement 0 ⟨1, 90, none⟩ false,
   .statement 0 ⟨1, 90, none⟩ false]

/-- Then token 1 is used again, and the statement that should revoke the family raises. -/
def raisingReuse : List RefreshEvent :=
  rotated ++ [.request ⟨1, 5⟩ true, .statement 0 ⟨2, 90, none⟩ false,
    .statement 0 ⟨2, 90, none⟩ true]

/-- Or a request with token 2 has passed the check when the reuse of token 1 is detected. -/
def overtakenDetection : List RefreshEvent :=
  rotated ++ [.request ⟨2, 5⟩ true, .statement 0 ⟨2, 3, none⟩ false, .request ⟨1, 5⟩ true,
    .statement 0 ⟨2, 90, none⟩ false, .statement 0 ⟨2, 90, none⟩ false,
    .statement 0 ⟨2, 90, some true⟩ false, .statement 0 ⟨2, 90, none⟩ false,
    .statement 0 ⟨2, 90, none⟩ false]

/-- In the first two runs a token is exchanged twice, and in the last one a token is exchanged after
a reuse was detected that the user was given before. -/
theorem rotation_unsafe :
    ¬ RotationSafe (run (step 7) start overlappingRequests).log ∧
    ¬ RotationSafe (run (step 7) start raisingReuse).log ∧
    ¬ RotationSafe (run (step 7) start overtakenDetection).log :=
  ⟨fun h => h.1 1 (by decide +kernel), fun h => h.1 1 (by decide +kernel),
    fun h => h.2 2 5 (by decide +kernel)⟩

end Avon.Admin.Refreshes
