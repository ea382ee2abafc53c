import Avon.Lib.Table
import Avon.Proofs.Control.FleetSteps

/-!
# Streams and broadcasts keep the invariant

Messages that move on within a stream change nobody's inbox. A message that is pushed changes
the inbox of one gateway, and `Inv.advance` is the step of a broadcast that has reached it.
-/

set_option autoImplicit false

namespace Avon.Control

open Avon.Policy Avon.Gateway Avon.Lib Avon.Lib.Mirror
open Function (update_of_ne)

namespace Fleet

variable {n : ℕ} {s s' : Fleet n}

/-! ### Steps of the streams -/

variable {streams streams' : List (EventStream n)} {phase : GatewayPhase} {st : EventStream n}
  {g : Fin n}

theorem inboxAt_congr
    (h : ∀ i, phase = .serving i → streams'[i]?.map contents = streams[i]?.map contents) :
    inboxAt streams' phase = inboxAt streams phase := by
  cases phase with
  | serving i => simp only [inboxAt, h i rfl]
  | registering boot todo read out => cases boot <;> rfl
  | configuring | stopped | idle => rfl

theorem reliesAt_congr
    (h : ∀ i, phase = .serving i → streams'[i]?.any (·.inbound) = streams[i]?.any (·.inbound)) :
    reliesAt streams' phase = reliesAt streams phase := by
  funext topic
  cases phase with
  | serving i => cases topic <;> simp only [reliesAt, h i rfl]
  | registering boot todo read out => cases boot <;> cases topic <;> rfl
  | configuring todo => cases topic <;> rfl
  | stopped | idle => rfl

theorem inbox_of_serving {stream : ℕ} (h : s.phases g = .serving stream)
    (hst : s.streams[stream]? = some st) : s.inbox g = contents st := by
  simp [inbox, h, inboxAt, hst]

theorem Inv.follows_of_streams (h : Inv s) (hphase : s'.phases g = s.phases g)
    (hgateway : s'.gateways g = s.gateways g)
    (hstream : ∀ i, s.phases g = .serving i → s'.streams[i]? = s.streams[i]?) :
    Follows s s' g := by
  apply h.follows hphase hgateway
  · rw [Fleet.inbox, Fleet.inbox, hphase]
    exact inboxAt_congr fun i hi => by rw [hstream i hi]
  · rw [relies, relies, hphase]
    exact reliesAt_congr fun i hi => by rw [hstream i hi]

theorem getElem?_openStream_last (s : Fleet n) (g : Fin n) :
    (s.openStream g).streams[s.streams.length]? = some ⟨g, [], none, [], true⟩ := by
  simp [openStream]

theorem getElem?_openStream {i : ℕ}
    (h : s.streams[i]? = some st) : (s.openStream g).streams[i]? = some st := by
  rw [openStream, List.getElem?_append_left (List.getElem?_eq_some_iff.mp h).1]
  exact h

theorem Wired.openStream (h : Wired s) (g : Fin n) : Wired (s.openStream g) := by
  constructor
  · intro g' i hi
    rcases update_eq_some.mp hi with ⟨rfl, ⟨⟩⟩ | ⟨-, hi⟩
    · exact ⟨_, getElem?_openStream_last s g', rfl⟩
    · obtain ⟨st, hst, howner⟩ := h.owner g' i hi
      exact ⟨st, getElem?_openStream hst, howner⟩
  intro g' i hi
  by_cases hg : g' = g
  · subst hg
    simp only [Fleet.openStream, Function.update_self, GatewayPhase.serving.injEq] at hi
    subst hi
    exact ⟨_, getElem?_openStream_last s g', rfl, fun _ => Function.update_self ..⟩
  simp only [Fleet.openStream, update_of_ne hg] at hi
  obtain ⟨st, hst, howner, hserves⟩ := h.serves g' i hi
  refine ⟨st, getElem?_openStream hst, howner, fun htrue => ?_⟩
  simpa [Fleet.openStream, update_of_ne hg] using hserves htrue

theorem Inv.openEventsStep (h : Inv s) (g : Fin n) : Inv (s.openEventsStep g) := by
  unfold Fleet.openEventsStep
  split
  · rename_i hphase
    refine h.follow rfl rfl rfl rfl (h.wired.openStream g) fun g' => ?_
    by_cases hg : g' = g
    · subst hg
      have hbefore : s.inbox g' = [] := by
        rw [Fleet.inbox, hphase, inboxAt]
      have hafter : (s.openStream g').inbox g' = [] :=
        inbox_of_serving (Function.update_self ..) (getElem?_openStream_last s g')
      refine ⟨h.gateway g', by rw [hafter]; exact List.forall_mem_nil _, fun topic _ => .inl ?_⟩
      have hrelied : s.relies g' topic = true := by
        simp [relies, hphase, reliesAt]
      have hsettled := h.settled_eq (by rw [hphase]; rfl) hrelied
      rw [settled, hbefore] at hsettled
      rw [settled, hafter]
      exact hsettled
    · refine h.follows_of_streams (update_of_ne hg ..) rfl fun i hi => ?_
      obtain ⟨st, hst, -⟩ := h.wired.serves g' i hi
      rw [getElem?_openStream hst, hst]
  · exact h

section
variable {env : PushEnv} {stream : ℕ} {f : EventStream n → EventStream n}

theorem getElem?_modifyStream (s : Fleet n) (stream : ℕ) (f : EventStream n → EventStream n)
    (i : ℕ) : (s.modifyStream stream f).streams[i]? =
      if i = stream then s.streams[i]?.map f else s.streams[i]? := by
  simp only [modifyStream, List.getElem?_modify]
  by_cases h : i = stream
  · simp [h]
  · simp [h, Ne.symm h]

variable {msg : PushMessage} {topic : Topic} {call : ℕ}

theorem inbox_modifyStream (h : s.phases g = .serving stream) (hst : s.streams[stream]? = some st) :
    (s.modifyStream stream f).inbox g = contents (f st) := by
  have hst' : (s.modifyStream stream f).streams[stream]? = some (f st) := by
    rw [getElem?_modifyStream, if_pos rfl, hst]
    rfl
  have hphase : (s.modifyStream stream f).phases g = .serving stream := h
  exact inbox_of_serving hphase hst'

theorem relies_modifyStream (hinbound : ∀ st, (f st).inbound = st.inbound) (g : Fin n) :
    (s.modifyStream stream f).relies g = s.relies g := by
  refine reliesAt_congr fun i _ => ?_
  rw [getElem?_modifyStream]
  split
  · cases s.streams[i]? with
    | none => rfl
    | some st => simp [hinbound]
  · rfl

theorem Wired.modifyStream (h : Wired s) (hgateway : ∀ st, (f st).gateway = st.gateway)
    (hinbound : ∀ st, (f st).inbound = st.inbound) : Wired (s.modifyStream stream f) := by
  -- Each stream is still there, with the same gateway.
  have hmap : ∀ {i : ℕ} {st : EventStream n}, s.streams[i]? = some st →
      ∃ st', (s.modifyStream stream f).streams[i]? = some st' ∧ st'.gateway = st.gateway ∧
        st'.inbound = st.inbound := by
    intro i st hst
    rw [getElem?_modifyStream, hst]
    split
    · exact ⟨f st, rfl, hgateway st, hinbound st⟩
    · exact ⟨st, rfl, rfl, rfl⟩
  constructor
  · intro g i hi
    obtain ⟨st, hst, howner⟩ := h.owner g i hi
    obtain ⟨st', hst', hg, -⟩ := hmap hst
    exact ⟨st', hst', hg.trans howner⟩
  intro g i hi
  obtain ⟨st, hst, howner, hserves⟩ := h.serves g i hi
  obtain ⟨st', hst', hg, hin⟩ := hmap hst
  exact ⟨st', hst', hg.trans howner, fun htrue => hserves (hin ▸ htrue)⟩

theorem Inv.modifyStream (h : Inv s) (hgateway : ∀ st, (f st).gateway = st.gateway)
    (hinbound : ∀ st, (f st).inbound = st.inbound)
    (hcontents : ∀ st, contents (f st) = contents st) : Inv (s.modifyStream stream f) := by
  refine h.follow rfl rfl rfl rfl (h.wired.modifyStream hgateway hinbound) fun g => ?_
  refine h.follows rfl rfl ?_ ?_
  · refine inboxAt_congr fun i _ => ?_
    rw [getElem?_modifyStream]
    split
    · cases s.streams[i]? with
      | none => rfl
      | some st => simp [hcontents]
    · rfl
  · exact relies_modifyStream hinbound g

theorem Inv.takeDown (h : Inv s) : Inv (s.modifyStream stream Fleet.takeDown) := by
  apply h.modifyStream <;> intro st <;> unfold Fleet.takeDown
  · split <;> rfl
  · split <;> rfl
  split
  · rename_i hheld hdown
    simp [contents, hheld, hdown]
  · rfl

theorem Inv.forward (h : Inv s) : Inv (s.modifyStream stream Fleet.forward) := by
  apply h.modifyStream <;> intro st <;> unfold Fleet.forward
  · split
    · split <;> rfl
    · rfl
  · split
    · split <;> rfl
    · rfl
  split
  · rename_i hheld
    split
    · simp [contents, hheld]
    · rfl
  · rfl

theorem inbox_closed (s : Fleet n) (stream : ℕ) (g g' : Fin n) :
    ((s.modifyStream stream fun st => { st with inbound := false }).removeHandle g').inbox g =
      s.inbox g := by
  refine inboxAt_congr fun i _ => ?_
  simp only [removeHandle, getElem?_modifyStream]
  split
  · cases s.streams[i]? <;> rfl
  · rfl

theorem relies_closed {g g' : Fin n}
    (h : ((s.modifyStream stream fun st => { st with inbound := false }).removeHandle g').relies g
      topic = true) : s.relies g topic = true := by
  rw [← h]
  refine (congrFun (reliesAt_congr fun i hi => ?_) topic).symm
  change s.phases g = .serving i at hi
  simp only [removeHandle, getElem?_modifyStream]
  split
  · rename_i hclosed
    -- The stream is the one that has just ended.
    have hphase : ((s.modifyStream stream fun st => { st with inbound := false }).removeHandle
        g').phases g = .serving stream := hi.trans (by rw [hclosed])
    rw [relies, hphase] at h
    simp only [reliesAt, removeHandle, getElem?_modifyStream, if_true] at h
    cases hst : s.streams[stream]? with
    | none | some => simp [hst] at h
  · rfl

theorem Wired.inboundEnds (h : Wired s)
    (hregistry : s.registry st.gateway = none ∨ s.registry st.gateway = some stream) :
    Wired ((s.modifyStream stream fun st => { st with inbound := false }).removeHandle
      st.gateway) := by
  constructor
  · intro g i hi
    by_cases hg : g = st.gateway
    · simp [removeHandle, hg] at hi
    simp only [removeHandle, update_of_ne hg] at hi
    obtain ⟨st', hst', howner⟩ := h.owner g i hi
    simp only [removeHandle, getElem?_modifyStream, hst']
    split
    · exact ⟨_, rfl, howner⟩
    · exact ⟨st', rfl, howner⟩
  · intro g i hi
    obtain ⟨st', hst', howner, hserves⟩ := h.serves g i hi
    simp only [removeHandle, getElem?_modifyStream, hst']
    split
    · exact ⟨_, rfl, howner, nofun⟩
    rename_i hother
    refine ⟨st', rfl, howner, fun htrue => ?_⟩
    have hhandle := hserves htrue
    -- The handle that is removed is not the one of this stream.
    have hg : g ≠ st.gateway := by
      rintro rfl
      rw [hhandle] at hregistry
      rcases hregistry with hnone | hsame
      · cases hnone
      · exact hother (Option.some.inj hsame)
    rw [update_of_ne hg]
    exact hhandle

theorem Inv.inboundEndsStep (h : Inv s) (hok : s.orderly env (.inboundEnds stream) = true) :
    Inv (s.inboundEndsStep stream) := by
  unfold Fleet.inboundEndsStep
  split
  · rename_i st hst
    split
    · simp only [orderly, hst, Bool.or_eq_true, decide_eq_true_eq] at hok
      refine h.follow rfl rfl rfl rfl (h.wired.inboundEnds hok) fun g => ?_
      refine ⟨h.gateway g, ?_, fun topic hrelies =>
        Or.inr ⟨relies_closed hrelies, rfl, fun heq => ?_⟩⟩
      · rw [inbox_closed]
        exact h.inbox g
      · rw [settled, inbox_closed]
        exact heq
    · exact h
  · exact h

theorem Wired.ne_serving (h : Wired s) {g g' : Fin n} (hne : g' ≠ g)
    (hphase : s.phases g = .serving stream) {i : ℕ} (hi : s.phases g' = .serving i) :
    i ≠ stream := by
  rintro rfl
  obtain ⟨st, hst, howner, -⟩ := h.serves g i hphase
  obtain ⟨st', hst', howner', -⟩ := h.serves g' i hi
  rw [hst] at hst'
  cases hst'
  exact hne (howner'.symm.trans howner)

section
variable {now : ℤ} {response : List PushMessage}

theorem versionsOf_deliver (h : accepts env (s.gateways g) now msg = true) (topic : Topic) :
    versionsOf ((s.deliver env g now stream msg response).gateways g) topic =
      update PushMessage.carried mergeVersion topic (versionsOf (s.gateways g) topic) msg := by
  rw [← versionsOf_receiveMessage h topic]
  simp [deliver, modifyStream, setGateway]

theorem relies_deliver (g' : Fin n) :
    (s.deliver env g now stream msg response).relies g' = s.relies g' := by
  rw [deliver, relies_modifyStream]
  · rfl
  · exact fun _ => rfl

theorem Inv.follows_deliver (h : Inv s) (hphase : s.phases g = .serving stream)
    {st : EventStream n} (hst : s.streams[stream]? = some st)
    (hresponse : st.response = msg :: response)
    (hloads : accepts env (s.gateways g) now msg = true) :
    Follows s (s.deliver env g now stream msg response) g := by
  have hbefore : s.inbox g = msg :: (response ++ st.held.toList ++ st.down) := by
    rw [inbox_of_serving hphase hst, contents, hresponse]
    rfl
  have hafter : (s.deliver env g now stream msg response).inbox g =
      response ++ st.held.toList ++ st.down :=
    inbox_modifyStream (s := s.setGateway g _) hphase hst
  have hsound := h.inbox g
  rw [hbefore] at hsound
  constructor
  · intro topic
    rw [versionsOf_deliver hloads]
    exact (hsound msg List.mem_cons_self).update (h.gateway g topic)
  · intro m hm
    rw [hafter] at hm
    exact hsound m (List.mem_cons_of_mem _ hm)
  intro topic hrelies
  rw [relies_deliver] at hrelies
  refine .inr ⟨hrelies, rfl, fun heq => ?_⟩
  rw [settled, hbefore, settle_cons] at heq
  rwa [settled, hafter, versionsOf_deliver hloads]

theorem Inv.receiveStep (h : Inv s) (hok : s.orderly env (.receive g now) = true) :
    Inv (s.receiveStep env g now) := by
  unfold Fleet.receiveStep
  split
  · rename_i stream hphase
    split
    · rename_i msg response hresponse
      obtain ⟨st, hst, hmsg⟩ := Option.map_eq_some_iff.mp hresponse
      simp only [orderly, hphase, hst, Option.bind_some, hmsg, List.head?_cons,
        Option.all_some] at hok
      have hwired : Wired (s.setGateway g (receiveMessage env (s.gateways g) now msg)) :=
        ⟨h.wired.owner, h.wired.serves⟩
      refine h.follow rfl rfl rfl rfl ?_ fun g' => ?_
      · exact hwired.modifyStream (fun _ => rfl) fun _ => rfl
      by_cases hg : g' = g
      · subst hg
        exact h.follows_deliver hphase hst hmsg hok
      -- The others read other streams.
      refine h.follows_of_streams rfl (update_of_ne hg ..) fun i hi => ?_
      rw [deliver, getElem?_modifyStream, if_neg (h.wired.ne_serving hg hphase hi)]
      rfl
    · exact h
  · exact h

end

theorem isOpen_of_relies (hphase : s.phases g = .serving stream)
    (hrelies : s.relies g topic = true) : s.isOpen g = true := by
  simp only [relies, hphase, reliesAt] at hrelies
  simp [isOpen, relies, hphase, isServing, reliesAt, hrelies]

/-- A message goes into the channel of a gateway. Only a snapshot that is out of date would put
a gateway out of step. -/
theorem Inv.push (h : Inv s) (hregistry : s.registry g = some stream) (hsound : s.Sound msg)
    (hcurrent : s.isOpen g = true → s.isCurrent msg = true) :
    Inv (s.modifyStream stream fun st => { st with down := st.down ++ [msg] }) := by
  refine h.follow rfl rfl rfl rfl (h.wired.modifyStream (fun _ => rfl) fun _ => rfl) fun g' => ?_
  by_cases hphase : s.phases g' = .serving stream
  · obtain ⟨st, hst, howner, -⟩ := h.wired.serves g' stream hphase
    obtain ⟨st', hst', howner'⟩ := h.wired.owner g stream hregistry
    rw [hst] at hst'
    cases hst'
    have hg : g' = g := howner.symm.trans howner'
    subst hg
    have hafter : (s.modifyStream stream fun st => { st with down := st.down ++ [msg] }).inbox g' =
        s.inbox g' ++ [msg] := by
      rw [inbox_modifyStream hphase hst, inbox_of_serving hphase hst]
      simp [contents]
    refine ⟨h.gateway g', ?_, fun topic hrelies => .inr ?_⟩
    · intro m hm
      rw [hafter, List.mem_append, List.mem_singleton] at hm
      rcases hm with hm | rfl
      · exact h.inbox g' m hm
      · exact hsound
    have hrelied : s.relies g' topic = true := by
      rw [relies_modifyStream] at hrelies
      · exact hrelies
      · exact fun _ => rfl
    refine ⟨hrelied, rfl, fun heq => ?_⟩
    rw [settled, hafter, settle_concat]
    change update PushMessage.carried mergeVersion topic (s.settled g' topic) msg = _
    rw [heq]
    exact update_versions hsound (hcurrent (isOpen_of_relies hphase hrelied)) topic
  · refine h.follows_of_streams rfl rfl fun i hi => ?_
    rw [getElem?_modifyStream, if_neg fun heq => hphase (hi.trans (by rw [heq]))]

theorem Inv.trySend (h : Inv s) (hsound : s.Sound msg)
    (hcurrent : s.isOpen g = true → s.isCurrent msg = true) : Inv (s.trySend g msg) := by
  unfold Fleet.trySend
  split
  · rename_i hregistry
    split
    · exact h.push hregistry hsound hcurrent
    · exact h
  · exact h

/-- A broadcast goes on when the gateway that it has visited is in step on what it carries. -/
theorem Inv.advance (h : Inv s) {rest : List (Fin n)}
    (hcall : s.calls call = some (.sending msg (g :: rest)))
    (hreached : ∀ topic, s.relies g topic = true →
      msg.carried topic = some (s.versions topic) → s.settled g topic = s.versions topic) :
    Inv (s.setCall call (some (.sending msg rest))) := by
  refine ⟨⟨h.wired.owner, h.wired.serves⟩, h.control, h.gateway, h.inbox, ?_, ?_⟩
  · apply sound_setCall h.sends
    rintro msg' rest' ⟨⟩
    exact h.sends call msg _ hcall
  intro g' topic hrelies
  rcases h.agree g' topic hrelies with
    hsettled | ⟨hserving, call', msg', rest', hcall', hg', hcarried⟩
  · exact .inl hsettled
  by_cases heq : call' = call
  · subst heq
    rw [hcall] at hcall'
    cases hcall'
    rcases List.mem_cons.mp hg' with rfl | hrest
    · exact .inl (hreached topic hrelies hcarried)
    · exact .inr ⟨hserving, call', msg, rest, Function.update_self .., hrest, hcarried⟩
  refine .inr ⟨hserving, call', msg', rest', ?_, hg', hcarried⟩
  rw [calls_setCall_of_ne heq]
  exact hcall'

theorem Inv.finish (h : Inv s)
    (hcall : s.calls call = some (.sending msg [])) : Inv (s.setCall call none) := by
  refine ⟨⟨h.wired.owner, h.wired.serves⟩, h.control, h.gateway, h.inbox, ?_, ?_⟩
  · exact sound_setCall h.sends nofun
  intro g topic hrelies
  refine (h.agree g topic hrelies).imp_right
    fun ⟨hserving, call', msg', rest', hcall', hg, hcarried⟩ => ?_
  have heq : call' ≠ call := by
    rintro rfl
    rw [hcall] at hcall'
    cases hcall'
    cases hg
  refine ⟨hserving, call', msg', rest', ?_, hg, hcarried⟩
  rw [calls_setCall_of_ne heq]
  exact hcall'

theorem Inv.settled_trySend (h : Inv s)
    (hphase : s.phases g = .serving stream) (hrelies : s.relies g topic = true)
    (hroom : (s.registry g).any s.hasRoom = true)
    (hcarried : msg.carried topic = some (s.versions topic)) :
    (s.trySend g msg).settled g topic = s.versions topic := by
  obtain ⟨st, hst, -, hserves⟩ := h.wired.serves g stream hphase
  have hregistry : s.registry g = some stream := by
    simp only [relies, hphase, reliesAt, hst, Option.any_some] at hrelies
    exact hserves hrelies
  have hsent : s.trySend g msg =
      s.modifyStream stream fun st => { st with down := st.down ++ [msg] } := by
    rw [hregistry, Option.any_some] at hroom
    simp [Fleet.trySend, hregistry, hroom]
  have hinbox : (s.trySend g msg).inbox g = s.inbox g ++ [msg] := by
    rw [hsent, inbox_modifyStream hphase hst, inbox_of_serving hphase hst]
    simp [contents]
  rw [settled, hinbox, settle_concat, update_of_some hcarried, hsent]
  exact (h.settled_within g topic).merge_versions

theorem trySend_frame (s : Fleet n) (g : Fin n) (msg : PushMessage) :
    (s.trySend g msg).calls = s.calls ∧ (s.trySend g msg).phases = s.phases ∧
      (s.trySend g msg).versions = s.versions ∧ (s.trySend g msg).relies = s.relies := by
  unfold Fleet.trySend
  split
  · split
    · refine ⟨rfl, rfl, rfl, funext fun g' => relies_modifyStream ?_ g'⟩
      exact fun _ => rfl
    · exact ⟨rfl, rfl, rfl, rfl⟩
  · exact ⟨rfl, rfl, rfl, rfl⟩

theorem exists_serving {phase : GatewayPhase} (h : isServing phase = true) :
    ∃ stream, phase = .serving stream := by
  cases phase with
  | serving stream => exact ⟨stream, rfl⟩
  | _ => cases h

theorem Inv.visitStep (h : Inv s) (hok : s.orderly env (.visit call) = true) :
    Inv (s.visitStep call) := by
  unfold Fleet.visitStep
  split
  · rename_i msg g rest hcall
    simp only [orderly, hcall, Bool.or_eq_true, Bool.not_eq_true', Bool.and_eq_true] at hok
    have hopen : s.isOpen g = true →
        (s.registry g).any s.hasRoom = true ∧ s.isCurrent msg = true := fun htrue =>
      hok.resolve_left (by simp [htrue])
    have hsent : Inv (s.trySend g msg) :=
      h.trySend (h.sends call msg _ hcall) fun htrue => (hopen htrue).2
    obtain ⟨hcalls, hphases, hversions, hsame⟩ := trySend_frame s g msg
    refine hsent.advance (by rw [hcalls, hcall]) fun topic hrelies hcarried => ?_
    by_cases hserving : isServing (s.phases g) = true
    · obtain ⟨stream, hphase⟩ := exists_serving hserving
      rw [hsame] at hrelies
      rw [hversions] at hcarried ⊢
      exact h.settled_trySend hphase hrelies (hopen (isOpen_of_relies hphase hrelies)).1 hcarried
    · exact hsent.settled_eq (by rwa [hphases, ← Bool.not_eq_true]) hrelies
  · rename_i msg hcall
    exact h.finish hcall
  · exact h

end

end Fleet

end Avon.Control
