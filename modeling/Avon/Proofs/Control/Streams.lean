import Avon.Control.Streams
import Avon.Lib.History

/-!
# Challenges are answered once, and streams that overlap

Nothing in the code keeps the streams of one device or gateway apart: the end of an old stream can
take the entry and the challenge of a new one (`newest_torn_down`). `newest_kept` is about runs in
which a stream is opened only when the one before it has ended.
-/

set_option autoImplicit false

namespace Avon.Control

open Avon.Crypto Avon.Lib.Run Challenges OpenStream
open Streams (step)

/-! ### Challenges -/

namespace ChallengeState

variable {δ : Type} [DecidableEq δ] {s s' : ChallengeState δ} {events : List (ChallengeOp δ)}

def LastIssued (start : ChallengeState δ) (events : List (ChallengeOp δ)) (device : δ)
    (o : Outstanding) : Prop :=
  ∃ pre post, events = pre ++ .issue device o.nonce :: post ∧
    (∀ nonce, .issue device nonce ∉ post) ∧ o.issued = (run step start pre).now

variable {e : ChallengeOp δ} {o : Outstanding} {device : δ}

theorem LastIssued.snoc {start : ChallengeState δ} (h : LastIssued start events device o)
    (he : ∀ nonce, e ≠ .issue device nonce) : LastIssued start (events ++ [e]) device o := by
  obtain ⟨pre, post, rfl, hpost, hissued⟩ := h
  refine ⟨pre, post ++ [e], by simp, fun nonce hmem => ?_, hissued⟩
  rcases List.mem_append.mp hmem with hmem | hmem
  · exact hpost nonce hmem
  · exact he nonce (List.mem_singleton.mp hmem).symm

theorem challenges_cases (h : (s.step e).challenges device = some o) :
    (s.challenges device = some o ∧ ∀ nonce, e ≠ .issue device nonce) ∨
      (e = .issue device o.nonce ∧ o.issued = s.now) := by
  cases e with
  | tick d => exact .inl ⟨h, by simp⟩
  | sweep => exact .inl ⟨(Option.filter_eq_some_iff.mp h).1, by simp⟩
  | issue device' nonce =>
    by_cases hd : device = device'
    · subst hd
      simp only [step, issue, Function.update_self, Option.some.injEq] at h
      subst h
      exact .inr ⟨rfl, rfl⟩
    · simp only [step, issue, Function.update_of_ne hd] at h
      exact .inl ⟨h, by simp [Ne.symm hd]⟩
  | _ device' =>
    by_cases hd : device = device'
    · simp [step, forget, hd] at h
    · simp only [step, forget, Function.update_of_ne hd] at h
      exact .inl ⟨h, by simp⟩

theorem lastIssued (now : ℕ) (events : List (ChallengeOp δ)) :
    ∀ device o, (run step (init now) events).challenges device = some o →
      LastIssued (init now) events device o := by
  refine run_history (I := fun xs (s : ChallengeState δ) =>
      ∀ device o, s.challenges device = some o → LastIssued (init now) xs device o)
    (by simp [init]) (fun xs e ih device o h => ?_) events
  rcases challenges_cases h with ⟨hold, he⟩ | ⟨rfl, hnow⟩
  · exact (ih device o hold).snoc he
  · exact ⟨xs, [], rfl, by simp, hnow⟩

def nonceOf : ChallengeOp δ → Option Bytes
  | .issue _ nonce => some nonce
  | _ => none

/-- The outstanding nonces are different, and will not be drawn again. -/
structure Distinct (s : ChallengeState δ) (events : List (ChallengeOp δ)) : Prop where
  nodup : (events.filterMap nonceOf).Nodup
  unused : ∀ device o, s.challenges device = some o → o.nonce ∉ events.filterMap nonceOf
  inj : ∀ device device' o o', s.challenges device = some o → s.challenges device' = some o' →
    o.nonce = o'.nonce → device = device'

theorem Distinct.step (h : Distinct s (e :: events)) : Distinct (s.step e) events := by
  obtain ⟨hnodup, hunused, hinj⟩ := h
  have hrest : ∀ nonce ∈ events.filterMap nonceOf, nonce ∈ (e :: events).filterMap nonceOf := by
    intro nonce hmem
    rw [List.filterMap_cons]
    split <;> simp [hmem]
  -- a nonce that is drawn now was not outstanding
  have hnew : ∀ device device' o nonce, e = .issue device nonce →
      s.challenges device' = some o → o.nonce ≠ nonce := by
    rintro device device' o nonce rfl ho rfl
    exact hunused device' o ho (by simp [nonceOf])
  refine ⟨?_, fun device o ho hmem => ?_, fun device device' o o' ho ho' heq => ?_⟩
  · cases he : nonceOf e with
    | none => simpa [he] using hnodup
    | some nonce =>
      rw [List.filterMap_cons_some he] at hnodup
      exact hnodup.of_cons
  · rcases challenges_cases ho with ⟨hold, -⟩ | ⟨rfl, -⟩
    · exact hunused device o hold (hrest _ hmem)
    · exact (List.nodup_cons.mp (by simpa [nonceOf] using hnodup)).1 hmem
  rcases challenges_cases ho with ⟨hold, -⟩ | ⟨he, -⟩ <;>
    rcases challenges_cases ho' with ⟨hold', -⟩ | ⟨he', -⟩
  · exact hinj _ _ _ _ hold hold' heq
  · exact absurd heq (hnew _ _ _ _ he' hold)
  · exact absurd heq.symm (hnew _ _ _ _ he hold')
  · exact (ChallengeOp.issue.inj (he.symm.trans he')).1

/-- What is taken in the rest of a run is outstanding now or issued later, and only once. -/
theorem taken_nodup (h : Distinct s events) : (trace step taken s events).Nodup ∧
    ∀ nonce ∈ trace step taken s events, nonce ∈ events.filterMap nonceOf ∨
      ∃ device o, s.challenges device = some o ∧ o.nonce = nonce := by
  induction events generalizing s with
  | nil => simp [trace]
  | cons e events ih =>
    obtain ⟨hnodup, hsource⟩ := ih h.step
    have hlater : ∀ nonce ∈ trace step taken (s.step e) events,
        nonce ∈ (e :: events).filterMap nonceOf ∨
          ∃ device o, s.challenges device = some o ∧ o.nonce = nonce := by
      intro nonce hmem
      rcases hsource nonce hmem with hissued | ⟨device, o, ho, rfl⟩
      · left
        rw [List.filterMap_cons]
        split <;> simp [hissued]
      rcases challenges_cases ho with ⟨hold, -⟩ | ⟨rfl, -⟩
      · exact .inr ⟨device, o, hold, rfl⟩
      · exact .inl (by simp [nonceOf])
    cases hout : taken s e with
    | nil =>
      rw [trace, hout, List.nil_append]
      exact ⟨hnodup, hlater⟩
    | cons nonce rest =>
      -- only `take` returns something, and the challenge is gone after it
      cases e with
      | take device =>
        obtain ⟨o, hfilter, rfl⟩ : ∃ o, (s.challenges device).filter (·.fresh s.now) = some o ∧
            o.nonce = nonce := by
          cases hf : (s.challenges device).filter (·.fresh s.now) with
          | none => simp [taken, take, hf] at hout
          | some o => exact ⟨o, rfl, (by simpa [taken, take, hf] using hout : _ ∧ _).1⟩
        have ho := (Option.filter_eq_some_iff.mp hfilter).1
        have hrest : rest = [] := by simpa [taken, take, hfilter] using hout
        subst hrest
        have hfresh : o.nonce ∉ trace step taken (s.step (.take device)) events := by
          intro hmem
          rcases hsource _ hmem with hissued | ⟨device', o', ho', heq⟩
          · exact h.unused device o ho (by simpa [nonceOf] using hissued)
          rcases challenges_cases ho' with ⟨hold, -⟩ | ⟨he, -⟩
          · obtain rfl := h.inj _ _ _ _ hold ho heq
            simp [step, forget] at ho'
          · cases he
        simp only [trace, hout, List.singleton_append, List.nodup_cons, List.mem_cons]
        refine ⟨⟨hfresh, hnodup⟩, ?_⟩
        rintro nonce (rfl | hmem)
        · exact .inr ⟨device, o, ho, rfl⟩
        · exact hlater nonce hmem
      | _ => cases hout

def Alike (s s' : ChallengeState δ) : Prop :=
  s.now = s'.now ∧ ∀ device o, o.fresh s.now = true →
    (s.challenges device = some o ↔ s'.challenges device = some o)

theorem Alike.step (h : Alike s s') (e : ChallengeOp δ) : Alike (s.step e) (s'.step e) := by
  obtain ⟨hnow, hsame⟩ := h
  refine ⟨by cases e <;> simp [ChallengeState.step, hnow], fun device o hfresh => ?_⟩
  cases e with
  | tick d =>
    -- what is answerable later is answerable now
    refine hsame device o (decide_eq_true ?_)
    have hlater : s.now + d - o.issued ≤ CHALLENGE_TTL := of_decide_eq_true hfresh
    omega
  | sweep =>
    simp only [ChallengeState.step, sweep, Option.filter_eq_some_iff, ← hnow]
    exact and_congr_left (hsame device o)
  | issue device' nonce | take device' | forget device' =>
    by_cases hd : device = device'
    · simp [ChallengeState.step, issue, forget, hd, hnow]
    · simpa [ChallengeState.step, issue, forget, hd]
        using hsame device o hfresh

theorem trace_of_alike (h : Alike s s') (events : List (ChallengeOp δ)) :
    trace step taken s events = trace step taken s' events := by
  induction events generalizing s s' with
  | nil => rfl
  | cons e events ih =>
    rw [trace, trace, ih (h.step e)]
    congr 1
    cases e with
    | take device =>
      have hfilter : ((s.challenges device).filter fun o => o.fresh s.now) =
          (s'.challenges device).filter fun o => o.fresh s'.now := by
        ext o
        simp only [Option.filter_eq_some_iff, ← h.1]
        exact and_congr_left (h.2 device o)
      simp only [taken, take, hfilter]
    | _ => rfl

/-- A nonce that is taken is the one last issued to the device, not long ago; if the nonces drawn
are different, none is taken twice; and a sweep changes nothing that is taken later. -/
theorem take_once (now : ℕ) (events : List (ChallengeOp δ)) :
    (∀ device, ∀ nonce ∈ (run step (init now) events).taken (.take device), ∃ issued,
      LastIssued (init now) events device ⟨nonce, issued⟩ ∧
      (run step (init now) events).now - issued ≤ CHALLENGE_TTL) ∧
    ((events.filterMap nonceOf).Nodup → (trace step taken (init now) events).Nodup) ∧
    ∀ later, trace step taken (run step (init now) (events ++ [.sweep])) later =
      trace step taken (run step (init now) events) later := by
  refine ⟨fun device nonce hmem => ?_, fun hnodup => ?_, fun later => ?_⟩
  · simp only [taken, take, Option.mem_toList, Option.map_eq_some_iff,
      Option.filter_eq_some_iff] at hmem
    obtain ⟨o, ⟨ho, hfresh⟩, rfl⟩ := hmem
    exact ⟨o.issued, lastIssued now events device o ho, of_decide_eq_true hfresh⟩
  · exact (taken_nodup ⟨hnodup, by simp [init], by simp [init]⟩).1
  rw [run_append]
  have halike : Alike ((run step (init now) events).step .sweep)
      (run step (init now) events) := by
    refine ⟨rfl, fun device o hfresh => ?_⟩
    simp only [step, sweep, Option.filter_eq_some_iff]
    exact and_iff_left hfresh
  exact trace_of_alike halike later

/-- A challenge is answered once, and a second one too late. -/
theorem take_once_twoChallenges :
    trace step taken (init 0) [.issue 0 [1], .take 0, .take 0, .issue 0 [2],
        .tick (CHALLENGE_TTL + 1), .take 0] = [[1]] ∧
      (trace step taken (init 0) [.issue 0 [1], .take 0, .take 0, .issue 0 [2],
        .tick (CHALLENGE_TTL + 1), .take 0]).Nodup :=
  ⟨by decide, (take_once 0 _).2.1 (by decide)⟩

/-! ### The attestation of one device -/

section
variable {ι : Type} [DecidableEq ι] {a : Attestation ι}

/-- What a step of the attestation of a device calls. -/
def calls (device : δ) (a : Attestation ι) : AttestationEvent ι → List (ChallengeOp δ)
  | .tick d => [.tick d]
  | .challenge k nonce => if (a.due k).any (· ≤ a.now) then [.issue device nonce] else []
  | .gone k => if (a.due k).isSome then [.forget device] else []
  | .evidence k _ _ => if a.phase k matches .idle then [.take device] else []
  | .sweep => [.sweep]
  | _ => []

/-- The challenge of the device, as the attestation of that device alone has it. -/
def Serves (device : δ) (s : ChallengeState δ) (a : Attestation ι) : Prop :=
  s.now = a.now ∧ s.challenges device = a.challenge

theorem Serves.step (Q : Attest.QuoteImpl) (h : Serves device s a) (e : AttestationEvent ι) :
    Serves device (run step s (calls device a e)) (a.step Q e) := by
  obtain ⟨hnow, hslot⟩ := h
  cases e with
  | tick d => exact ⟨congrArg (· + d) hnow, hslot⟩
  | challenge k nonce =>
    simp only [calls, Attestation.step, Attestation.challengeStep]
    cases a.due k with
    | none => exact ⟨hnow, hslot⟩
    | some due =>
      by_cases hdue : due ≤ a.now
      · simp [hdue, Serves, ChallengeState.step, issue, hnow]
      · simpa [hdue] using ⟨hnow, hslot⟩
  | gone k =>
    simp only [calls, Attestation.step, Attestation.goneStep]
    cases a.due k with
    | none => exact ⟨hnow, hslot⟩
    | some due => simp [Serves, ChallengeState.step, forget, hnow]
  | evidence k format bytes =>
    simp only [calls, Attestation.step, Attestation.evidenceStep]
    cases a.phase k with
    | idle =>
      cases hchallenge : a.challenge with
      | none => simp [Serves, ChallengeState.step, forget, hnow, hchallenge]
      | some o =>
        cases hfresh : o.fresh a.now <;>
          simp [hfresh, Serves, ChallengeState.step, forget, hnow, Attestation.setPhase]
    | _ => exact ⟨hnow, hslot⟩
  | sweep => simp [calls, Attestation.step, Serves, ChallengeState.step, sweep, hnow, hslot]
  | openStream k | readKey k | check k | record k | inboundEnds k =>
    simp only [Attestation.step, Attestation.openStep, Attestation.readKeyStep,
      Attestation.checkStep, Attestation.recordStep, Attestation.inboundEndsStep]
    repeat' split
    all_goals exact ⟨hnow, hslot⟩

/-- The challenge that the attestation of a device works with is the entry of that device in
`Challenges`, in every run and whatever the other devices have there. -/
theorem serves_run (Q : Attest.QuoteImpl) (h : Serves device s a)
    (events : List (AttestationEvent ι)) :
    Serves device (run step s (trace (Attestation.step Q) (calls device) a events))
      (run (Attestation.step Q) a events) :=
  run_refines (fun _ _ e h => h.step Q e) h events

end

end ChallengeState

/-! ### Streams -/

namespace Streams

variable {s : Streams} {e : StreamOp}

/-- The stream that was opened last for its device or gateway, if it is open, has the entry. -/
def Registered (s : Streams) : Prop :=
  ∀ k st, s.streams k = some st → s.latest st.owner = some k → st.isOpen = true →
    s.registry st.owner = some k

/-- While the stream of a device that was opened last is open, a step removes the device's
challenge only if it answers or replaces it, or if it has expired. -/
def Answerable (s : Streams) (e : StreamOp) : Prop :=
  ∀ k st id o, s.streams k = some st → st.owner = .device id → s.latest (.device id) = some k →
    st.isOpen = true → s.challenges id = some o → (s.step e).challenges id ≠ some o →
    (∃ j st', s.streams j = some st' ∧ st'.owner = .device id ∧
      (e = .answer j ∨ ∃ nonce sent, e = .challenge j nonce sent)) ∨
    (e = .sweep ∧ o.fresh s.now = false)

/-- A stream is opened when the one before it has ended. -/
def alone (s : Streams) : StreamOp → Bool
  | .open _ owner => ((s.latest owner).bind s.streams).all fun st => !st.live
  | _ => true

/-- Only the stream opened last has tasks, and the entry is its own. -/
def Inv (s : Streams) : Prop :=
  ∀ k st, s.streams k = some st → (st.live = true → s.latest st.owner = some k) ∧
    (st.inbound = true → s.registry st.owner = some k)

theorem Inv.setStream (h : Inv s) {k : ℕ} {st st' : OpenStream} (hst : s.streams k = some st)
    (howner : st'.owner = st.owner) (hlive : st'.live = true → st.live = true)
    (hinbound : st'.inbound = true → st.inbound = true) : Inv (s.setStream k st') := by
  intro j stj hj
  by_cases hjk : j = k
  · subst hjk
    simp only [Streams.setStream, Function.update_self, Option.some.injEq] at hj
    subst hj
    have hold := h j st hst
    rw [← howner] at hold
    exact ⟨fun hl => hold.1 (hlive hl), fun hi => hold.2 (hinbound hi)⟩
  · simp only [Streams.setStream, Function.update_of_ne hjk] at hj
    exact h j stj hj

theorem Inv.inboundEndsStep (h : Inv s) (k : ℕ) : Inv (s.inboundEndsStep k) := by
  unfold Streams.inboundEndsStep
  split
  · rename_i owner ticker hst
    have h' : Inv (s.setStream k ⟨owner, false, ticker⟩) :=
      h.setStream hst rfl (fun _ => rfl) nofun
    intro j st hj
    refine ⟨(h' j st hj).1, fun hinbound => ?_⟩
    by_cases ho : st.owner = owner
    · -- the stream that ends is the only one of its owner
      have hlatest : s.latest owner = some j :=
        ho ▸ (h' j st hj).1 (by simp [live, hinbound])
      obtain rfl : k = j := Option.some.inj (((h k _ hst).1 rfl).symm.trans hlatest)
      simp only [Streams.setStream, Function.update_self, Option.some.injEq] at hj
      subst hj
      cases hinbound
    · show Function.update s.registry owner none st.owner = some j
      rw [Function.update_of_ne ho]
      exact (h' j st hj).2 hinbound
  · exact h

theorem Inv.openStep (h : Inv s) {k : ℕ} {owner : Identity} (halone : s.alone (.open k owner)) :
    Inv (s.openStep k owner) := by
  unfold Streams.openStep
  split
  · exact h
  intro j st hj
  by_cases hjk : j = k
  · subst hjk
    simp only [Streams.setStream, Function.update_self, Option.some.injEq] at hj
    subst hj
    simp
  simp only [Streams.setStream, Function.update_of_ne hjk] at hj
  by_cases ho : st.owner = owner
  · -- the earlier streams of the owner have ended
    have hdead : st.live = false := by
      by_contra hlive
      have hlatest := (h j st hj).1 (by simpa using hlive)
      simp [alone, ← ho, hlatest, hj, hlive] at halone
    have hinbound : st.inbound = false := by
      simp only [live, Bool.or_eq_false_iff] at hdead
      exact hdead.1
    simp [hdead, hinbound]
  · simpa [ho] using h j st hj

theorem Inv.step (h : Inv s) (halone : s.alone e) : Inv (s.step e) := by
  cases e with
  | tick | sweep => exact h
  | answer k =>
    simp only [step, answerStep]
    split <;> exact h
  | challenge k nonce sent =>
    simp only [step, challengeStep]
    split
    · rename_i hst
      exact h.setStream hst rfl (fun _ => by simp [live]) id
    · exact h
  | forget k =>
    simp only [step, forgetStep]
    split
    · rename_i hst
      exact h.setStream hst rfl (fun _ => by simp [live]) id
    · exact h
  | inboundEnds k => exact h.inboundEndsStep k
  | «open» k owner => exact h.openStep halone

theorem challenges_cases (s : Streams) (e : StreamOp) (id : DeviceId) :
    (s.step e).challenges id = s.challenges id ∨
    (∃ j st, s.streams j = some st ∧ st.owner = .device id ∧
      (e = .answer j ∨ (∃ nonce sent, e = .challenge j nonce sent) ∨
        (e = .forget j ∧ st.ticker = .leaving))) ∨
    (e = .sweep ∧ (s.step e).challenges id = (s.challenges id).filter (·.fresh s.now)) := by
  cases e with
  | tick d => exact .inl rfl
  | sweep => exact .inr (.inr ⟨rfl, rfl⟩)
  | «open» j owner =>
    simp only [step, Streams.openStep]
    split <;> exact .inl rfl
  | inboundEnds j =>
    simp only [step, Streams.inboundEndsStep]
    split <;> exact .inl rfl
  | answer j | challenge j nonce sent | forget j =>
    simp only [step, answerStep, challengeStep, forgetStep]
    split
    · rename_i id' _ hst
      by_cases hid : id = id'
      · exact .inr (.inl ⟨j, _, hst, by simp [hid], by simp⟩)
      · exact .inl (by simp [issue, forget, hid])
    · exact .inl rfl

theorem Inv.answerable (h : Inv s) (e : StreamOp) : s.Answerable e := by
  intro k st id o hst howner hlatest hopen ho hgone
  rcases challenges_cases s e id with hsame | ⟨j, st', hj, howner', he⟩ | ⟨rfl, hsweep⟩
  · exact absurd (hsame.trans ho) hgone
  · rcases he with he | he | ⟨-, hleaving⟩
    · exact .inl ⟨j, st', hj, howner', .inl he⟩
    · exact .inl ⟨j, st', hj, howner', .inr he⟩
    -- only the stream opened last has a ticker, and that one is running
    have hlive := (h j st' hj).1 (by simp [live, hleaving])
    rw [howner', hlatest] at hlive
    obtain rfl := Option.some.inj hlive
    obtain rfl := Option.some.inj (hst.symm.trans hj)
    simp [isOpen, howner, hleaving] at hopen
  · refine .inr ⟨rfl, ?_⟩
    by_contra hfresh
    exact hgone (by simp [hsweep, ho, hfresh])

/-- If a stream is opened only when the one before it has ended, the stream that was opened last
keeps its entry and its challenge. -/
theorem newest_kept (now : ℕ) (events : List StreamOp)
    (halone : Guarded step (fun s e => s.alone e = true) (init now) events) :
    (run step (init now) events).Registered ∧ ∀ e, (run step (init now) events).Answerable e := by
  have hinv : Inv (run step (init now) events) :=
    halone.invariant (fun _ _ h hok => h.step hok) (by simp [Inv, init])
  refine ⟨fun k st hst _ hopen => (hinv k st hst).2 ?_, hinv.answerable⟩
  simp only [isOpen, Bool.and_eq_true] at hopen
  exact hopen.1

def reconnects : List StreamOp :=
  [.open 0 (.device 1), .challenge 0 [1] true, .inboundEnds 0, .challenge 0 [2] false, .forget 0,
    .open 1 (.device 1), .challenge 1 [3] true, .open 2 (.gateway 1), .inboundEnds 2,
    .open 3 (.gateway 1)]

theorem newest_kept_reconnects :
    (run step (init 0) reconnects).registry (.device 1) = some 1 ∧
      (run step (init 0) reconnects).Registered ∧
      ∀ e, (run step (init 0) reconnects).Answerable e :=
  ⟨by decide, newest_kept 0 reconnects (by decide)⟩

/-- The laptop and the gateway connect again before control has noticed the end of the first
stream. -/
def overlap : List StreamOp :=
  [.open 0 (.device 1), .challenge 0 [1] true, .open 1 (.device 1), .challenge 1 [2] true,
    .open 2 (.gateway 1), .open 3 (.gateway 1)]

/-- The ends of the first streams take the entries of the second ones, and the challenge that was
issued on the second one. -/
theorem newest_torn_down :
    ¬ (run step (init 0) (overlap ++ [.inboundEnds 0])).Registered ∧
    ¬ (run step (init 0) (overlap ++ [.inboundEnds 2])).Registered ∧
    ¬ (run step (init 0) ([.open 0 (.device 1), .challenge 0 [1] false, .open 1 (.device 1),
      .challenge 1 [2] true])).Answerable (.forget 0) := by
  refine ⟨fun h => ?_, fun h => ?_, fun h => ?_⟩
  · exact absurd (h 1 ⟨.device 1, true, .running⟩ rfl (by decide) rfl) (by decide)
  · exact absurd (h 3 ⟨.gateway 1, true, .ended⟩ rfl (by decide) rfl) (by decide)
  rcases h 1 ⟨.device 1, true, .running⟩ 1 ⟨[2], 0⟩ rfl rfl (by decide) rfl (by decide)
    (by decide) with ⟨j, st, -, -, he⟩ | ⟨he, -⟩
  · simp at he
  · simp at he

end Streams

end Avon.Control
