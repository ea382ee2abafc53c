import Avon.Control.Db
import Avon.Proofs.Policy.Decide
import Avon.Proofs.Policy.Ports

/-!
# The published schema against the engine

The schema says nothing on what `PolicySpec::validate` checks, checks no format, and lets a range of
ports be reversed. For each structure, "it decodes, and what it decodes to passes the checks on it"
is turned into a condition on the document.
-/

set_option autoImplicit false

namespace Avon.Policy

open Avon.Lib Avon.Lib.JsonSchema Schema

/-! ### Fields -/

/-- The elements of a list in a field, none if the field is absent. -/
def listed (j : Json) (key : String) : List Json :=
  match j.get key with
  | some (.array vs) => vs
  | _ => []

section Fields

variable {α : Type} {j : Json} {key : String} {f : Json → Option α} {p : α → Prop}
  {properties : List (String × Schema)} {items : Schema} {vs : List Json}

theorem hasOnly_of_object {required known : List String}
    (h : object required properties false j = true)
    (hknown : ∀ key ∈ properties.map Prod.fst, known.contains key = true) :
    Decode.hasOnly known j = true := by
  obtain ⟨fields, rfl, -, -, hfields⟩ := of_object h
  simp only [Bool.false_eq_true, false_or] at hfields
  refine List.all_eq_true.mpr fun field hfield => ?_
  obtain ⟨property, hproperty, heq⟩ := hfields field hfield
  exact heq ▸ hknown property.1 (List.mem_map_of_mem hproperty)

theorem isObject_of_object {required : List String}
    {additional : Bool} (h : object required properties additional j = true) :
    Decode.isObject j = true := by
  obtain ⟨fields, rfl, -⟩ := of_object h
  rfl

theorem exists_required : (∃ a, Decode.required j key f = some a ∧ p a) ↔
    ∃ v, j.get key = some v ∧ ∃ a, f v = some a ∧ p a := by
  simp only [Decode.required, Option.bind_eq_some_iff]
  grind

theorem exists_withDefault {default : α} (hdefault : p default) :
    (∃ a, Decode.withDefault j key default f = some a ∧ p a) ↔
      ∀ v, j.get key = some v → ∃ a, f v = some a ∧ p a := by
  unfold Decode.withDefault
  cases j.get key with
  | none => simp [hdefault]
  | some v => simp

theorem exists_option {v : Json} :
    (∃ o, Decode.option f v = some o ∧ ∀ a, o = some a → p a) ↔
      (v ≠ .null → ∃ a, f v = some a ∧ p a) := by
  cases v <;> simp [Decode.option]

theorem exists_optional :
    (∃ o, Decode.withDefault j key none (Decode.option f) = some o ∧ ∀ a, o = some a → p a) ↔
      ∀ v, j.get key = some v → v ≠ .null → ∃ a, f v = some a ∧ p a := by
  rw [exists_withDefault (by simp)]
  simp only [exists_option]

theorem isSome_optional : (Decode.withDefault j key none (Decode.option f)).isSome ↔
    ∀ v, j.get key = some v → v ≠ .null → (f v).isSome := by
  simpa [Option.isSome_iff_exists] using
    exists_optional (j := j) (f := f) (p := fun _ => True)

theorem exists_of_nullable {schema : Schema}
    (h : ∀ v, j.get key = some v → nullable schema v = true)
    (hf : ∀ {v}, schema v = true → (f v).isSome) :
    ∃ o, Decode.withDefault j key none (Decode.option f) = some o := by
  refine Option.isSome_iff_exists.mp (isSome_optional.mpr fun v hget hnull => hf ?_)
  exact (of_nullable (h v hget)).resolve_left hnull

theorem withDefault_vec (h : ∀ v, j.get key = some v → array items v = true) :
    Decode.withDefault j key [] (Decode.vec f) = (listed j key).mapM f := by
  unfold Decode.withDefault listed
  cases hget : j.get key with
  | none => rfl
  | some v =>
    obtain ⟨vs, rfl, -⟩ := of_array (h v hget)
    rfl

theorem of_listed (h : ∀ v, j.get key = some v → array items v = true) :
    ∀ v ∈ listed j key, items v = true := by
  unfold listed
  cases hget : j.get key with
  | none => simp
  | some v =>
    obtain ⟨vs, rfl, hvs⟩ := of_array (h v hget)
    exact hvs

theorem texts_of_strings (h : ∀ v ∈ vs, string v = true) :
    ∃ texts : List String, vs = texts.map .string := by
  induction vs with
  | nil => exact ⟨[], rfl⟩
  | cons v vs ih =>
    obtain ⟨hv, hvs⟩ := List.forall_mem_cons.mp h
    obtain ⟨s, rfl⟩ := of_string hv
    obtain ⟨texts, rfl⟩ := ih hvs
    exact ⟨s :: texts, rfl⟩

theorem mapM_text (texts : List String) :
    (texts.map Json.string).mapM Decode.text = some texts := by
  induction texts with
  | nil => rfl
  | cons s texts ih => simp [Decode.text, ih]

theorem isSome_mapM_texts {g : String → Option α} (h : ∀ v ∈ vs, string v = true) :
    (vs.mapM fun v => (Decode.text v).bind g).isSome ↔ ∀ s, Json.string s ∈ vs → (g s).isSome := by
  obtain ⟨texts, rfl⟩ := texts_of_strings h
  rw [isSome_mapM]
  simp [Decode.text]

theorem exists_withDefault_bool (h : ∀ v, j.get key = some v → boolean v = true) :
    ∃ b, Decode.withDefault j key false Decode.bool = some b ∧
      (b = true ↔ j.get key = some (.bool true)) := by
  unfold Decode.withDefault
  cases hget : j.get key with
  | none => exact ⟨false, rfl, by simp⟩
  | some v =>
    obtain ⟨b, rfl⟩ := of_boolean (h v hget)
    exact ⟨b, rfl, by simp⟩

end Fields

/-! ### Selectors -/

def Selects (j : Json) : Prop :=
  j.get "any" = some (.bool true) ∨
    ∃ key ∈ ["pods", "devices", "device_classes", "cidrs"], listed j key ≠ []

/-- A selector that the engine takes: its identifiers and networks are some, and it names
something. -/
structure SelectorReady (R : Readers) (j : Json) : Prop where
  ids : ∀ key ∈ ["pods", "devices", "device_classes"], ∀ s, Json.string s ∈ listed j key →
    (R.uuid s).isSome
  cidrs : ∀ s, Json.string s ∈ listed j "cidrs" → (R.ipNet s).isSome
  selects : Selects j

section Selectors

variable {R : Readers} {j : Json} {s : Selector}

section
variable (h : selector j = true)
include h

theorem array_of_selector :
    ∀ key ∈ ["pods", "devices", "device_classes", "cidrs"], ∀ v, j.get key = some v →
      array string v = true := by
  intro key hkey v hget
  refine property_of_object h ?_ hget
  simp only [List.mem_cons, List.not_mem_nil, or_false] at hkey
  rcases hkey with rfl | rfl | rfl | rfl <;> simp

theorem any_of_selector : ∃ b, Decode.withDefault j "any" false Decode.bool = some b ∧
      (b = true ↔ j.get "any" = some (.bool true)) :=
  exists_withDefault_bool fun _ hget => property_of_object h (by simp) hget

theorem selector_eq_some : Decode.selector R j = some s ↔
    (listed j "pods").mapM (Decode.uuid R) = some s.pods ∧
      (listed j "devices").mapM (Decode.uuid R) = some s.devices ∧
      (listed j "device_classes").mapM (Decode.uuid R) = some s.deviceClasses ∧
      (listed j "cidrs").mapM (Decode.ipNet R) = some s.cidrs ∧
      Decode.withDefault j "any" false Decode.bool = some s.any := by
  unfold Decode.selector
  rw [if_pos (hasOnly_of_object h (by decide)),
    withDefault_vec (array_of_selector h "pods" (by simp)),
    withDefault_vec (array_of_selector h "devices" (by simp)),
    withDefault_vec (array_of_selector h "device_classes" (by simp)),
    withDefault_vec (array_of_selector h "cidrs" (by simp))]
  simp only [Option.bind_eq_bind, Option.bind_eq_some_iff, Option.pure_def, Option.some.injEq]
  grind

theorem isEmpty_iff (hs : Decode.selector R j = some s) : s.isEmpty = false ↔ Selects j := by
  obtain ⟨hpods, hdevices, hclasses, hcidrs, hany⟩ := (selector_eq_some h).mp hs
  obtain ⟨b, hb, hiff⟩ := any_of_selector h
  rw [hb] at hany
  cases hany
  simp only [Selects, ← hiff, List.exists_mem_cons_iff, List.not_mem_nil, false_and, exists_false,
    or_false, ne_eq, ← mapM_nil_iff hpods, ← mapM_nil_iff hdevices, ← mapM_nil_iff hclasses,
    ← mapM_nil_iff hcidrs, Selector.isEmpty]
  simp only [← List.isEmpty_iff]
  cases s.any <;> cases s.pods.isEmpty <;> cases s.devices.isEmpty <;>
    cases s.deviceClasses.isEmpty <;> cases s.cidrs.isEmpty <;> decide

theorem cidrs_eq_nil_iff (hs : Decode.selector R j = some s) :
    s.cidrs = [] ↔ listed j "cidrs" = [] := by
  obtain ⟨-, -, -, hcidrs, -⟩ := (selector_eq_some h).mp hs
  exact mapM_nil_iff hcidrs

theorem selector_isSome_iff : (Decode.selector R j).isSome ↔
    (∀ key ∈ ["pods", "devices", "device_classes"], ∀ s, Json.string s ∈ listed j key →
      (R.uuid s).isSome) ∧ ∀ s, Json.string s ∈ listed j "cidrs" → (R.ipNet s).isSome := by
  have hlist := array_of_selector h
  simp only [List.forall_mem_cons, List.not_mem_nil, false_implies, implies_true, and_true]
    at hlist ⊢
  obtain ⟨hpods, hdevices, hclasses, hcidrs⟩ := hlist
  rw [← isSome_mapM_texts (of_listed hpods), ← isSome_mapM_texts (of_listed hdevices),
    ← isSome_mapM_texts (of_listed hclasses), ← isSome_mapM_texts (of_listed hcidrs)]
  simp only [Option.isSome_iff_exists]
  constructor
  · rintro ⟨s, hs⟩
    obtain ⟨hpods, hdevices, hclasses, hcidrs, -⟩ := (selector_eq_some h).mp hs
    exact ⟨⟨⟨_, hpods⟩, ⟨_, hdevices⟩, ⟨_, hclasses⟩⟩, ⟨_, hcidrs⟩⟩
  rintro ⟨⟨⟨pods, hpods⟩, ⟨devices, hdevices⟩, ⟨classes, hclasses⟩⟩, ⟨cidrs, hcidrs⟩⟩
  obtain ⟨any, hany, -⟩ := any_of_selector h
  exact ⟨⟨pods, devices, classes, cidrs, any⟩,
    (selector_eq_some h).mpr ⟨hpods, hdevices, hclasses, hcidrs, hany⟩⟩

theorem exists_selector :
    (∃ s, Decode.selector R j = some s ∧ s.isEmpty = false) ↔ SelectorReady R j := by
  constructor
  · rintro ⟨s, hs, hempty⟩
    obtain ⟨hids, hcidrs⟩ := (selector_isSome_iff h).mp (Option.isSome_of_eq_some hs)
    exact ⟨hids, hcidrs, (isEmpty_iff h hs).mp hempty⟩
  intro hready
  obtain ⟨s, hs⟩ := Option.isSome_iff_exists.mp
    ((selector_isSome_iff h).mpr ⟨hready.ids, hready.cidrs⟩)
  exact ⟨s, hs, (isEmpty_iff h hs).mpr hready.selects⟩

theorem exists_source : (∃ s, Decode.selector R j = some s ∧ s.isEmpty = false ∧ s.cidrs = []) ↔
      SelectorReady R j ∧ listed j "cidrs" = [] := by
  rw [← exists_selector h]
  constructor
  · rintro ⟨s, hs, hempty, hcidrs⟩
    exact ⟨⟨s, hs, hempty⟩, (cidrs_eq_nil_iff h hs).mp hcidrs⟩
  · rintro ⟨⟨s, hs, hempty⟩, hcidrs⟩
    exact ⟨s, hs, hempty, (cidrs_eq_nil_iff h hs).mpr hcidrs⟩

end

end Selectors

/-! ### Rules on ports -/

/-- A rule that the engine takes: its ports can be read, and are given for TCP and UDP only. -/
def L4Ready (j : Json) : Prop :=
  ∀ s : String, j.get "ports" = some (.string s) → PortsReady s.toList ∧
    (trim s.toList = [] ∨ j.get "protocol" = some (.string "tcp") ∨
      j.get "protocol" = some (.string "udp"))

/-- Ports are given for TCP and UDP only. -/
def L4Rule.PortsAllowed (rule : L4Rule) : Prop :=
  rule.ports.isAll = true ∨ rule.protocol = .tcp ∨ rule.protocol = .udp

section Rules

variable {P : Python} {j : Json} {rule : L4Rule}

theorem l4Rule_eq_some (h : l4Rule P j = true) : Decode.l4Rule j = some rule ↔
    Decode.required j "protocol" Decode.protocol = some rule.protocol ∧
      Decode.withDefault j "ports" ⟨[]⟩ Decode.portSet = some rule.ports := by
  unfold Decode.l4Rule
  rw [if_pos (isObject_of_object h)]
  simp only [Option.bind_eq_bind, Option.bind_eq_some_iff, Option.pure_def, Option.some.injEq]
  grind

theorem protocol_of_rule (h : l4Rule P j = true) :
    ∃ protocol, Decode.required j "protocol" Decode.protocol = some protocol ∧
      (protocol = .tcp ↔ j.get "protocol" = some (.string "tcp")) ∧
      (protocol = .udp ↔ j.get "protocol" = some (.string "udp")) := by
  obtain ⟨v, hget, henum⟩ : ∃ v, j.get "protocol" = some v ∧ protocol v = true :=
    required_property h (by simp) (by simp)
  obtain ⟨s, hs, rfl⟩ := of_enum henum
  simp only [List.mem_cons, List.not_mem_nil, or_false] at hs
  rcases hs with rfl | rfl | rfl | rfl
  · exact ⟨.tcp, by simp [Decode.required, hget, Decode.protocol, Decode.text], by simp [hget]⟩
  · exact ⟨.udp, by simp [Decode.required, hget, Decode.protocol, Decode.text], by simp [hget]⟩
  · exact ⟨.icmp, by simp [Decode.required, hget, Decode.protocol, Decode.text], by simp [hget]⟩
  · exact ⟨.any, by simp [Decode.required, hget, Decode.protocol, Decode.text], by simp [hget]⟩

theorem exists_l4Rule (h : l4Rule P j = true) :
    (∃ rule, Decode.l4Rule j = some rule ∧ rule.PortsAllowed) ↔ L4Ready j := by
  obtain ⟨protocol, hprotocol, htcp, hudp⟩ := protocol_of_rule h
  have hpattern : ∀ v, j.get "ports" = some v → pattern (portSetPattern P) v = true :=
    fun v hget => property_of_object h (by simp) hget
  have hrule : (∃ rule, Decode.l4Rule j = some rule ∧ rule.PortsAllowed) ↔
      ∃ ports, Decode.withDefault j "ports" ⟨[]⟩ Decode.portSet = some ports ∧
        (ports.isAll = true ∨ protocol = .tcp ∨ protocol = .udp) := by
    simp only [l4Rule_eq_some h, hprotocol, Option.some.injEq]
    constructor
    · rintro ⟨rule, ⟨rfl, hports⟩, hcheck⟩
      exact ⟨rule.ports, hports, hcheck⟩
    · rintro ⟨ports, hports, hcheck⟩
      exact ⟨⟨protocol, ports⟩, ⟨rfl, hports⟩, hcheck⟩
  rw [hrule, exists_withDefault (.inl rfl), htcp, hudp]
  constructor
  · intro hall s hget
    obtain ⟨ports, hports, hcheck⟩ := hall _ hget
    have hs := hpattern _ hget
    exact ⟨(portSet_isSome_iff hs).mp (Option.isSome_of_eq_some hports),
      hcheck.imp_left (isAll_iff hs hports).mp⟩
  intro hready v hget
  obtain ⟨s, hs, rfl⟩ := of_pattern (hpattern v hget)
  obtain ⟨hports, hcheck⟩ := hready s hget
  obtain ⟨ports, hread⟩ := Option.isSome_iff_exists.mp ((portSet_isSome_iff hs).mpr hports)
  exact ⟨ports, hread, hcheck.imp_left (isAll_iff hs hread).mpr⟩

end Rules

/-! ### Time windows -/

/-- A time of the day: an hour and a minute with a colon between them. -/
def Clock (s : List Char) : Prop :=
  ':' ∈ s ∧ (∃ hour ∈ parseU32 (s.takeWhile (· ≠ ':')), hour ≤ 23) ∧
    ∃ minute ∈ parseU32 (s.dropWhile (· ≠ ':')).tail, minute ≤ 59

structure TimeWindowReady (tz : TzDb) (j : Json) : Prop where
  days : listed j "days" ≠ []
  names : ∀ s, Json.string s ∈ listed j "days" →
    s.toLower ∈ ["mon", "tue", "wed", "thu", "fri", "sat", "sun"]
  timezone : ∀ s, j.get "timezone" = some (.string s) → (tz.parse s).isSome
  times : ∀ key ∈ ["start", "end"], ∀ s : String, j.get key = some (.string s) → Clock s.toList

section TimeWindows

variable {tz : TzDb} {j : Json} {w : TimeWindow}

theorem parseHhmm_ok_iff {s : String} : (∃ t, parseHhmm s = .ok t) ↔ Clock s.toList := by
  unfold parseHhmm Clock
  rcases cut_cases ':' s.toList with hcolon | ⟨h, m, hh, hs⟩
  · rw [span_ne_all hcolon]
    simp [hcolon]
  rw [hs, span_ne hh, takeWhile_ne hh, dropWhile_ne hh]
  simp only [List.mem_append, List.mem_cons, true_or, or_true, List.tail_cons, true_and,
    Option.mem_def]
  cases hhour : parseU32 h with
  | none => simp
  | some hour =>
    cases hminute : parseU32 m with
    | none => simp
    | some minute =>
      simp only [Option.some.injEq, exists_eq_left']
      split <;> simp <;> omega

theorem window_ok_iff : w.validate tz = .ok () ↔ w.days ≠ [] ∧ (tz.parse w.timezone).isSome ∧
    Clock w.start.toList ∧ Clock w.stop.toList := by
  rw [← parseHhmm_ok_iff, ← parseHhmm_ok_iff]
  by_cases hdays : w.days = []
  · simp [TimeWindow.validate, hdays]
  cases hzone : tz.parse w.timezone with
  | none => simp [TimeWindow.validate, hdays, hzone]
  | some zone =>
    simp only [TimeWindow.validate, List.isEmpty_iff, hdays, ↓reduceIte, hzone,
      Option.isNone_some, Bool.false_eq_true, bind_eq_ok]
    tauto

theorem isSome_weekday {s : String} : (Decode.weekday s).isSome ↔
    s.toLower ∈ ["mon", "tue", "wed", "thu", "fri", "sat", "sun"] := by
  unfold Decode.weekday
  split <;> simp_all

theorem required_text {key s : String} :
    Decode.required j key Decode.text = some s ↔ j.get key = some (.string s) := by
  unfold Decode.required
  cases j.get key with
  | none => simp
  | some v => cases v <;> simp [Decode.text]

theorem timeWindow_eq_some (h : timeWindow j = true) : Decode.timeWindow j = some w ↔
    j.get "start" = some (.string w.start) ∧ j.get "end" = some (.string w.stop) ∧
      Decode.required j "days" Decode.weekdays = some w.days ∧
      j.get "timezone" = some (.string w.timezone) := by
  unfold Decode.timeWindow
  rw [if_pos (hasOnly_of_object h (by decide))]
  simp only [Option.bind_eq_bind, Option.bind_eq_some_iff, Option.pure_def, Option.some.injEq,
    required_text]
  grind

theorem exists_days (h : timeWindow j = true) :
    (∃ days, Decode.required j "days" Decode.weekdays = some days ∧ days ≠ []) ↔
      listed j "days" ≠ [] ∧ ∀ s, Json.string s ∈ listed j "days" →
        s.toLower ∈ ["mon", "tue", "wed", "thu", "fri", "sat", "sun"] := by
  obtain ⟨v, hget, harray⟩ : ∃ v, j.get "days" = some v ∧ array string v = true :=
    required_property h (by simp) (by simp)
  obtain ⟨vs, rfl, hvs⟩ := of_array harray
  obtain ⟨names, rfl⟩ := texts_of_strings hvs
  have hlisted : listed j "days" = names.map .string := by simp [listed, hget]
  have hweekdays : Decode.required j "days" Decode.weekdays = names.mapM Decode.weekday := by
    simp only [Decode.required, hget, Option.bind_some, Decode.weekdays, Decode.vec, mapM_text]
  rw [hweekdays, hlisted]
  constructor
  · rintro ⟨days, hdays, hne⟩
    refine ⟨fun hnil => hne ((mapM_nil_iff hdays).mpr (List.map_eq_nil_iff.mp hnil)), ?_⟩
    intro s hs
    exact isSome_weekday.mp
      (isSome_mapM.mp (Option.isSome_of_eq_some hdays) s (by simpa using hs))
  rintro ⟨hne, hnames⟩
  obtain ⟨days, hdays⟩ := Option.isSome_iff_exists.mp
    (isSome_mapM.mpr fun s hs => isSome_weekday.mpr (hnames s (by simpa using hs)))
  exact ⟨days, hdays, fun hnil => hne (by simp [(mapM_nil_iff hdays).mp hnil])⟩

theorem exists_timeWindow (h : timeWindow j = true) :
    (∃ w, Decode.timeWindow j = some w ∧ w.validate tz = .ok ()) ↔ TimeWindowReady tz j := by
  have htext : ∀ key ∈ ["start", "end", "timezone"], ∃ s, j.get key = some (.string s) := by
    intro key hkey
    have hrequired : key ∈ ["days", "end", "start", "timezone"] := by
      revert key
      decide
    have hproperty : (key, string) ∈ [("days", array string), ("end", string), ("start", string),
        ("timezone", string)] := by
      simp only [List.mem_cons, List.not_mem_nil, or_false] at hkey
      rcases hkey with rfl | rfl | rfl <;> simp
    obtain ⟨v, hget, hv⟩ := required_property h hrequired hproperty
    obtain ⟨s, rfl⟩ := of_string hv
    exact ⟨s, hget⟩
  constructor
  · rintro ⟨w, hw, hok⟩
    obtain ⟨hstart, hstop, hdays, hzone⟩ := (timeWindow_eq_some h).mp hw
    obtain ⟨hne, hknown, hclock, hclock'⟩ := window_ok_iff.mp hok
    obtain ⟨hlisted, hnames⟩ := (exists_days h).mp ⟨w.days, hdays, hne⟩
    refine ⟨hlisted, hnames, ?_, ?_⟩
    · intro s hs
      rw [hzone] at hs
      cases hs
      exact hknown
    intro key hkey s hs
    simp only [List.mem_cons, List.not_mem_nil, or_false] at hkey
    rcases hkey with rfl | rfl
    · rw [hstart] at hs
      cases hs
      exact hclock
    rw [hstop] at hs
    cases hs
    exact hclock'
  · intro hready
    obtain ⟨days, hdays, hne⟩ := (exists_days h).mpr ⟨hready.days, hready.names⟩
    obtain ⟨start, hstart⟩ := htext "start" (by simp)
    obtain ⟨stop, hstop⟩ := htext "end" (by simp)
    obtain ⟨timezone, hzone⟩ := htext "timezone" (by simp)
    refine ⟨⟨start, stop, days, timezone⟩, (timeWindow_eq_some h).mpr ⟨hstart, hstop, hdays, hzone⟩,
      window_ok_iff.mpr ⟨hne, hready.timezone _ hzone, ?_, ?_⟩⟩
    · exact hready.times "start" (by simp) _ hstart
    · exact hready.times "end" (by simp) _ hstop

end TimeWindows

/-! ### Conditions -/

/-- A number that is absent, `null`, or an integer that fits. -/
def Fits (hi : ℤ) (j : Json) (key : String) : Prop :=
  ∀ v, j.get key = some v → v ≠ .null → ∃ n, v = .int n ∧ 0 ≤ n ∧ n ≤ hi

structure ConditionsReady (tz : TzDb) (j : Json) : Prop where
  timeWindow : ∀ v, j.get "time_window" = some v → v ≠ .null → TimeWindowReady tz v
  posture : ∀ v, j.get "posture" = some v → v ≠ .null →
    Fits (2 ^ 32 - 1) v "max_hours_since_update"
  maxRiskScore : Fits 255 j "max_risk_score"

section Conditions

variable {P : Python} {tz : TzDb} {j : Json}

theorem isSome_intBetween {lo hi : ℤ} :
    (Decode.intBetween lo hi j).isSome ↔ ∃ n, j = .int n ∧ lo ≤ n ∧ n ≤ hi := by
  cases j <;> simp [Decode.intBetween]

theorem fits_iff {hi : ℤ} {key : String} {α : Type} {g : ℤ → α} : Fits hi j key ↔
    (Decode.withDefault j key none
      (Decode.option fun v => (Decode.intBetween 0 hi v).map g)).isSome := by
  rw [isSome_optional]
  simp only [Option.isSome_map, isSome_intBetween]
  rfl

theorem isSome_bool {v : Json} (h : boolean v = true) : (Decode.bool v).isSome := by
  obtain ⟨b, rfl⟩ := of_boolean h
  rfl

theorem isSome_text {v : Json} (h : string v = true) : (Decode.text v).isSome := by
  obtain ⟨s, rfl⟩ := of_string h
  rfl

theorem postureRequirements_isSome_iff (h : postureRequirements P j = true) :
    (Decode.postureRequirements j).isSome ↔ Fits (2 ^ 32 - 1) j "max_hours_since_update" := by
  have hflag : ∀ key ∈ ["firewall_enabled", "disk_encrypted", "screen_lock_enabled"],
      ∃ o, Decode.withDefault j key none (Decode.option Decode.bool) = some o := by
    intro key hkey
    refine exists_of_nullable (fun v hget => property_of_object h ?_ hget) isSome_bool
    simp only [List.mem_cons, List.not_mem_nil, or_false] at hkey
    rcases hkey with rfl | rfl | rfl <;> simp
  obtain ⟨firewallEnabled, hfirewall⟩ := hflag "firewall_enabled" (by simp)
  obtain ⟨diskEncrypted, hdisk⟩ := hflag "disk_encrypted" (by simp)
  obtain ⟨screenLockEnabled, hlock⟩ := hflag "screen_lock_enabled" (by simp)
  have hversion : ∃ o, Decode.withDefault j "min_os_version" none (Decode.option Decode.text) =
      some o :=
    exists_of_nullable (fun v hget => property_of_object h (by simp) hget) isSome_text
  obtain ⟨minOsVersion, hversion⟩ := hversion
  unfold Decode.postureRequirements
  rw [if_pos (hasOnly_of_object h (by simp)), hfirewall, hdisk, hlock, hversion]
  have hhours : Fits (2 ^ 32 - 1) j "max_hours_since_update" ↔ (Decode.withDefault j
      "max_hours_since_update" none (Decode.option Decode.u32)).isSome := fits_iff
  rw [hhours]
  cases Decode.withDefault j "max_hours_since_update" none (Decode.option Decode.u32) <;> rfl

theorem conditions_eq_some {c : Conditions} (h : conditions P j = true) :
    Decode.conditions j = some c ↔
      Decode.withDefault j "time_window" none (Decode.option Decode.timeWindow) =
          some c.timeWindow ∧
        Decode.withDefault j "posture" none (Decode.option Decode.postureRequirements) =
          some c.posture ∧
        Decode.withDefault j "attestation" none (Decode.option Decode.attestationRequirement) =
          some c.attestation ∧
        Decode.withDefault j "max_risk_score" none (Decode.option Decode.u8) =
          some c.maxRiskScore := by
  unfold Decode.conditions
  rw [if_pos (hasOnly_of_object h (by simp))]
  simp only [Option.bind_eq_bind, Option.bind_eq_some_iff, Option.pure_def, Option.some.injEq]
  grind

theorem isSome_attestation {v : Json} (h : attestationRequirement v = true) :
    (Decode.attestationRequirement v).isSome := by
  obtain ⟨s, hs, rfl⟩ := of_enum h
  simp only [List.mem_cons, List.not_mem_nil, or_false] at hs
  rcases hs with rfl | rfl <;> rfl

theorem exists_conditions (h : conditions P j = true) :
    (∃ c, Decode.conditions j = some c ∧
      ∀ w, c.timeWindow = some w → w.validate tz = .ok ()) ↔ ConditionsReady tz j := by
  have hwindow : (∃ o, Decode.withDefault j "time_window" none (Decode.option Decode.timeWindow) =
      some o ∧ ∀ w, o = some w → w.validate tz = .ok ()) ↔
      ∀ v, j.get "time_window" = some v → v ≠ .null → TimeWindowReady tz v := by
    rw [exists_optional]
    refine forall₃_congr fun v hget hnull => exists_timeWindow ?_
    have hv : nullable timeWindow v = true := property_of_object h (by simp) hget
    exact (of_nullable hv).resolve_left hnull
  have hposture : (∃ o, Decode.withDefault j "posture" none
      (Decode.option Decode.postureRequirements) = some o) ↔
      ∀ v, j.get "posture" = some v → v ≠ .null → Fits (2 ^ 32 - 1) v "max_hours_since_update" := by
    rw [← Option.isSome_iff_exists, isSome_optional]
    refine forall₃_congr fun v hget hnull => postureRequirements_isSome_iff (P := P) ?_
    have hv : nullable (postureRequirements P) v = true :=
      property_of_object h (by simp) hget
    exact (of_nullable hv).resolve_left hnull
  have hattestation : ∃ o, Decode.withDefault j "attestation" none
      (Decode.option Decode.attestationRequirement) = some o :=
    exists_of_nullable (fun v hget => property_of_object h (by simp) hget) isSome_attestation
  have hrisk : (∃ o, Decode.withDefault j "max_risk_score" none (Decode.option Decode.u8) =
      some o) ↔ Fits 255 j "max_risk_score" :=
    Option.isSome_iff_exists.symm.trans fits_iff.symm
  simp only [conditions_eq_some h]
  constructor
  · rintro ⟨c, ⟨hw, hp, -, hr⟩, hcheck⟩
    exact ⟨hwindow.mp ⟨_, hw, hcheck⟩, hposture.mp ⟨_, hp⟩, hrisk.mp ⟨_, hr⟩⟩
  intro hready
  obtain ⟨w, hw, hcheck⟩ := hwindow.mpr hready.timeWindow
  obtain ⟨p, hp⟩ := hposture.mpr hready.posture
  obtain ⟨a, ha⟩ := hattestation
  obtain ⟨r, hr⟩ := hrisk.mpr hready.maxRiskScore
  exact ⟨⟨w, p, a, r⟩, ⟨hw, hp, ha, hr⟩, hcheck⟩

end Conditions

/-! ### Policies -/

/-- A document that the engine takes, among those that the schema accepts. -/
structure PolicyReady (R : Readers) (tz : TzDb) (doc : Json) : Prop where
  version : doc.get "version" = some (.int 2)
  priority : ∀ v, doc.get "priority" = some v → ∃ n, v = .int n ∧ 0 ≤ n ∧ n ≤ 10000
  source : ∀ v, doc.get "source" = some v → SelectorReady R v ∧ listed v "cidrs" = []
  destination : ∀ v, doc.get "destination" = some v → SelectorReady R v
  l4 : ∀ rule ∈ listed doc "l4", L4Ready rule
  conditions : ∀ v, doc.get "conditions" = some v → ConditionsReady tz v

section Policies

variable {P : Python} {R : Readers} {tz : TzDb} {doc : Json} {p : PolicySpec}

theorem validate_ok_iff : p.validate tz = .ok () ↔
    p.version = 2 ∧ (0 ≤ p.priority ∧ p.priority ≤ 10000) ∧
      (p.source.isEmpty = false ∧ p.source.cidrs = []) ∧ p.destination.isEmpty = false ∧
      (∀ rule ∈ p.l4, rule.PortsAllowed) ∧
      ∀ w, p.conditions.timeWindow = some w → w.validate tz = .ok () := by
  have hrules : (p.l4.any fun rule =>
      !rule.ports.isAll && !(rule.protocol = .tcp || rule.protocol = .udp)) = false ↔
      ∀ rule ∈ p.l4, rule.PortsAllowed := by
    rw [List.any_eq_false]
    refine forall₂_congr fun rule _ => ?_
    unfold L4Rule.PortsAllowed
    cases rule.ports.isAll <;> simp [or_iff_not_imp_left]
  unfold PolicySpec.validate
  simp only [ite_error_eq_ok, ne_eq, not_not, Bool.not_eq_true, Bool.not_eq_false',
    List.isEmpty_iff, hrules]
  cases p.conditions.timeWindow <;> simp <;> tauto

theorem policySpec_eq_some (h : policySpec P doc = true) :
    Decode.policySpec R doc = some p ↔
      Decode.required doc "version" Decode.u8 = some p.version ∧
        Decode.required doc "effect" Decode.effect = some p.effect ∧
        Decode.withDefault doc "priority" Decode.defaultPriority Decode.i32 = some p.priority ∧
        Decode.required doc "source" (Decode.selector R) = some p.source ∧
        Decode.required doc "destination" (Decode.selector R) = some p.destination ∧
        (listed doc "l4").mapM Decode.l4Rule = some p.l4 ∧
        Decode.withDefault doc "conditions" ⟨none, none, none, none⟩ Decode.conditions =
          some p.conditions := by
  have hl4 : ∀ v, doc.get "l4" = some v → array (l4Rule P) v = true := fun v hget =>
    property_of_object h (by simp) hget
  unfold Decode.policySpec
  rw [if_pos (hasOnly_of_object h (by simp)), withDefault_vec hl4]
  simp only [Option.bind_eq_bind, Option.bind_eq_some_iff, Option.pure_def, Option.some.injEq]
  grind

/-! ### Each field against what the engine takes -/

theorem exists_version : (∃ v, Decode.required doc "version" Decode.u8 = some v ∧ v = 2) ↔
    doc.get "version" = some (.int 2) := by
  rw [exists_required]
  constructor
  · rintro ⟨v, hget, _, hv, rfl⟩
    rw [hget]
    cases v with
    | int n =>
      simp only [Decode.u8, Option.map_eq_some_iff, Decode.intBetween,
        Option.ite_none_right_eq_some, Option.some.injEq] at hv
      obtain ⟨_, ⟨⟨hlo, hhi⟩, rfl⟩, htwo⟩ := hv
      have hmod := congrArg UInt8.toNat htwo
      simp only [UInt8.toNat_ofNat'] at hmod
      have htwo : n = 2 := by
        change n.toNat % 256 = 2 at hmod
        omega
      rw [htwo]
    | _ => cases hv
  · intro hget
    exact ⟨.int 2, hget, 2, by decide, rfl⟩

theorem exists_effect (h : policySpec P doc = true) :
    ∃ e, Decode.required doc "effect" Decode.effect = some e := by
  obtain ⟨v, hget, henum⟩ : ∃ v, doc.get "effect" = some v ∧ effect v = true :=
    required_property h (by simp) (by simp)
  obtain ⟨s, hs, rfl⟩ := of_enum henum
  simp only [List.mem_cons, List.not_mem_nil, or_false] at hs
  rcases hs with rfl | rfl
  · exact ⟨.allow, by simp [Decode.required, hget, Decode.effect, Decode.text]⟩
  · exact ⟨.deny, by simp [Decode.required, hget, Decode.effect, Decode.text]⟩

theorem exists_priority :
    (∃ n, Decode.withDefault doc "priority" Decode.defaultPriority Decode.i32 = some n ∧
      (0 ≤ n ∧ n ≤ 10000)) ↔
      ∀ v, doc.get "priority" = some v → ∃ n, v = .int n ∧ 0 ≤ n ∧ n ≤ 10000 := by
  rw [exists_withDefault (by decide)]
  refine forall₂_congr fun v _ => ?_
  cases v with
  | int n =>
    simp only [Decode.i32, Decode.intBetween, Option.ite_none_right_eq_some, Option.some.injEq,
      Json.int.injEq]
    constructor
    · rintro ⟨_, ⟨-, rfl⟩, hn⟩
      exact ⟨n, rfl, hn⟩
    · rintro ⟨_, rfl, hn⟩
      exact ⟨n, ⟨by omega, rfl⟩, hn⟩
  | _ => simp [Decode.i32, Decode.intBetween]

theorem exists_required_selector {key : String} {q : Selector → Prop} {ready : Json → Prop}
    (h : ∃ v, doc.get key = some v)
    (hready : ∀ v, doc.get key = some v →
      ((∃ s, Decode.selector R v = some s ∧ q s) ↔ ready v)) :
    (∃ s, Decode.required doc key (Decode.selector R) = some s ∧ q s) ↔
      ∀ v, doc.get key = some v → ready v := by
  obtain ⟨v, hget⟩ := h
  rw [exists_required]
  simp only [hget, Option.some.injEq, exists_eq_left', forall_eq']
  exact hready v hget

theorem exists_l4 (h : policySpec P doc = true) :
    (∃ rules, (listed doc "l4").mapM Decode.l4Rule = some rules ∧
      ∀ rule ∈ rules, rule.PortsAllowed) ↔ ∀ rule ∈ listed doc "l4", L4Ready rule := by
  have hl4 : ∀ v, doc.get "l4" = some v → array (l4Rule P) v = true := fun v hget =>
    property_of_object h (by simp) hget
  rw [exists_mapM]
  exact forall₂_congr fun rule hrule => exists_l4Rule (of_listed hl4 rule hrule)

theorem exists_conditions_field (h : policySpec P doc = true) :
    (∃ c, Decode.withDefault doc "conditions" ⟨none, none, none, none⟩ Decode.conditions = some c ∧
      ∀ w, c.timeWindow = some w → w.validate tz = .ok ()) ↔
      ∀ v, doc.get "conditions" = some v → ConditionsReady tz v := by
  rw [exists_withDefault (by simp)]
  refine forall₂_congr fun v hget => ?_
  have hv : conditions P v = true := property_of_object h (by simp) hget
  exact exists_conditions hv

theorem loads_iff (h : policySpec P doc = true) :
    (∃ spec, Decode.policySpec R doc = some spec ∧ spec.validate tz = .ok ()) ↔
      PolicyReady R tz doc := by
  have hsource : (∃ s, Decode.required doc "source" (Decode.selector R) = some s ∧
      s.isEmpty = false ∧ s.cidrs = []) ↔
      ∀ v, doc.get "source" = some v → SelectorReady R v ∧ listed v "cidrs" = [] :=
    exists_required_selector (exists_of_object h (by simp)) fun v hget =>
      exists_source (property_of_object h (by simp) hget)
  have hdestination : (∃ s, Decode.required doc "destination" (Decode.selector R) = some s ∧
      s.isEmpty = false) ↔ ∀ v, doc.get "destination" = some v → SelectorReady R v :=
    exists_required_selector (exists_of_object h (by simp)) fun v hget =>
      exists_selector (property_of_object h (by simp) hget)
  simp only [policySpec_eq_some h, validate_ok_iff]
  constructor
  · rintro ⟨p, ⟨hv, -, hp, hs, hd, hr, hc⟩, hversion, hpriority, hselects, hnames, hrules, hwindow⟩
    exact ⟨exists_version.mp ⟨_, hv, hversion⟩, exists_priority.mp ⟨_, hp, hpriority⟩,
      hsource.mp ⟨_, hs, hselects⟩, hdestination.mp ⟨_, hd, hnames⟩,
      (exists_l4 h).mp ⟨_, hr, hrules⟩, (exists_conditions_field h).mp ⟨_, hc, hwindow⟩⟩
  intro hready
  obtain ⟨version, hv, hversion⟩ := exists_version.mpr hready.version
  obtain ⟨effect, he⟩ := exists_effect h
  obtain ⟨priority, hp, hpriority⟩ := exists_priority.mpr hready.priority
  obtain ⟨source, hs, hselects⟩ := hsource.mpr hready.source
  obtain ⟨destination, hd, hnames⟩ := hdestination.mpr hready.destination
  obtain ⟨rules, hr, hrules⟩ := (exists_l4 h).mpr hready.l4
  obtain ⟨conditions, hc, hwindow⟩ := (exists_conditions_field h).mpr hready.conditions
  exact ⟨⟨version, effect, priority, source, destination, rules, conditions⟩,
    ⟨hv, he, hp, hs, hd, hr, hc⟩, hversion, hpriority, hselects, hnames, hrules, hwindow⟩

theorem policyEntry_isSome_iff {decode : Json → Option PolicySpec} {row : Control.PolicyRow} :
    (Control.policyEntry tz decode row).isSome ↔
      ∃ spec, decode row.spec = some spec ∧ spec.validate tz = .ok () := by
  unfold Control.policyEntry
  cases decode row.spec with
  | none => simp
  | some spec => cases hvalid : spec.validate tz <;> simp [hvalid]

/-- For every document that the published schema accepts: it decodes into a `PolicySpec` that passes
`PolicySpec::validate`, and `load_snapshot` does not skip a row with it, exactly if the document is
`PolicyReady`. -/
theorem schema_sound_iff (P : Python) (R : Readers) (tz : TzDb) (doc : Json)
    (h : policySpec P doc = true) :
    ((∃ spec, Decode.policySpec R doc = some spec ∧ spec.validate tz = .ok ()) ↔
      PolicyReady R tz doc) ∧
    ∀ row : Control.PolicyRow, row.spec = doc →
      ((Control.policyEntry tz (Decode.policySpec R) row).isSome ↔ PolicyReady R tz doc) := by
  refine ⟨loads_iff h, ?_⟩
  rintro row rfl
  exact policyEntry_isSome_iff.trans (loads_iff h)

end Policies

/-! ### Documents -/

def asciiPython : Python where
  isIntegral _ := false
  isNonnegative _ := false
  isDecimal c := c.isDigit
  decimal_ascii _ _ := rfl
  decimal_not_space _ h := not_space_of_isDigit h

def someReaders : Readers where
  uuid s := if s = "7d444840-9dc0-11d1-b245-5ffdce74fad2" then some 1 else none
  ipNet s := if s = "10.0.0.0/8" then some ⟨.v4 0x0A000000, 8, by decide⟩ else none

def officeWindow : Json :=
  .object [("start", .string "08:00"), ("end", .string "18:30"),
    ("days", .array [.string "Mon", .string "tue"]), ("timezone", .string "UTC")]

def document (source : Json) (ports : String) : Json :=
  .object [("version", .int 2), ("effect", .string "allow"), ("source", source),
    ("destination", .object [("cidrs", .array [.string "10.0.0.0/8"])]),
    ("l4", .array [.object [("protocol", .string "tcp"), ("ports", .string ports)]]),
    ("conditions", .object [("time_window", officeWindow), ("max_risk_score", .int 50)])]

def podSource : Json :=
  .object [("pods", .array [.string "7d444840-9dc0-11d1-b245-5ffdce74fad2"])]

theorem schema_sound_document :
    policySpec asciiPython (document podSource "22, 8000-8100") = true ∧
      PolicyReady someReaders utc (document podSource "22, 8000-8100") := by
  have haccepted : policySpec asciiPython (document podSource "22, 8000-8100") = true := by
    decide +kernel
  have hany : (Decode.policySpec someReaders (document podSource "22, 8000-8100")).any
      (fun spec => spec.validate utc = .ok ()) = true := by
    decide +kernel
  obtain ⟨spec, hspec, hvalid⟩ := (Option.any_eq_true _ _).mp hany
  exact ⟨haccepted, (schema_sound_iff asciiPython someReaders utc _ haccepted).1.mp
    ⟨spec, hspec, of_decide_eq_true hvalid⟩⟩

/-- A range of ports that is reversed, and a source that names nothing: the schema accepts both
documents. The first does not decode, and the second is refused by `validate`. -/
theorem schema_unsound :
    (policySpec asciiPython (document podSource "90-80") = true ∧
      Decode.policySpec someReaders (document podSource "90-80") = none) ∧
    policySpec asciiPython (document (.object []) "80") = true ∧
      (Decode.policySpec someReaders (document (.object []) "80")).map
        (fun spec => spec.validate utc) = some (.error (.emptySelector "source")) := by
  decide +kernel

end Avon.Policy
