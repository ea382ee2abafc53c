import Avon.Proofs.Policy.Ports

/-!
# The text of a list of ports

What `serialize` writes is read back and matches the pattern of the schema, and what `parse` reads
has the ports that the text names.
-/

set_option autoImplicit false

namespace Avon.Policy

open Avon.Lib Computability Schema PortSet Pattern

variable {P : Python} {w s a b part : List Char} {n : ℕ} {r : PortRange}

/-! ### The text matches the pattern -/

theorem digitWord_toDigits (h : n < 2 ^ 16) : DigitWord (Nat.toDigits 10 n) where
  nonempty := Nat.toDigits_ne_nil
  digits _ hc := Nat.isDigit_of_mem_toDigits (by decide) le_rfl hc
  bound := by
    show Nat.ofDigitChars 10 _ 0 < _
    rwa [Nat.ofDigitChars_toDigits (by decide) le_rfl]

theorem decimal_toDigits : decimal (Nat.toDigits 10 n) = n :=
  Nat.ofDigitChars_toDigits (by decide) le_rfl

theorem isDecimal_of_isDigit {c : Char} (h : c.isDigit = true) : P.isDecimal c = true :=
  isDecimal_of_between (isDigit_iff.mp h).1 (isDigit_iff.mp h).2

theorem mem_port (h : n < 2 ^ 16) : Nat.toDigits 10 n ∈ (port P).denote := by
  obtain ⟨hne, hdigits, hbound⟩ := digitWord_toDigits h
  have hten : 1 < 10 := by decide
  have hfive := (Nat.length_toDigits_le_iff (n := n) (k := 5) hten (by decide)).mpr (by omega)
  -- a number of five digits does not begin with a zero
  have hlow : 4 < (Nat.toDigits 10 n).length → 10 ^ 4 ≤ decimal (Nat.toDigits 10 n) := by
    intro hfour
    rw [decimal_toDigits]
    exact not_lt.mp ((Nat.length_toDigits_le_iff hten (by decide)).not.mp (not_le.mpr hfour))
  have hdecimal : ∀ c ∈ Nat.toDigits 10 n, P.isDecimal c = true := fun c hc =>
    isDecimal_of_isDigit (hdigits c hc)
  generalize Nat.toDigits 10 n = w at *
  rcases w with _ | ⟨a, _ | ⟨b, _ | ⟨c, _ | ⟨d, _ | ⟨e, _ | ⟨f, w⟩⟩⟩⟩⟩⟩
  · exact absurd rfl hne
  case cons.cons.cons.cons.cons.cons =>
    simp only [List.length_cons] at hfive
    omega
  case cons.cons.cons.cons.cons.nil =>
    replace hlow := hlow (Nat.lt_succ_self 4)
    simp only [List.forall_mem_cons, isDigit_iff] at hdigits hdecimal
    simp only [decimal, List.foldl_cons, List.foldl_nil, Char.reduceToNat] at hlow hbound
    simp [port, digit, char, range, times, ← Char.toNat_inj,
      hdecimal, hdigits]
    -- The first digit that is smaller than that of 65535 decides.
    by_cases ha : a.toNat ≤ 53
    · have hone : 49 ≤ a.toNat := by omega
      simp [ha, hone]
    replace ha : a.toNat = 54 := by omega
    by_cases hb : b.toNat ≤ 52
    · simp [ha, hb]
    replace hb : b.toNat = 53 := by omega
    by_cases hc : c.toNat ≤ 52
    · simp [ha, hb, hc]
    replace hc : c.toNat = 53 := by omega
    by_cases hd : d.toNat ≤ 50
    · simp [ha, hb, hc, hd]
    have hlast : d.toNat = 51 ∧ e.toNat ≤ 53 := by omega
    simp [ha, hb, hc, hlast]
  all_goals simp_all [port, digit, char, range, times]

theorem mem_portRange : r.text ∈ (portRange P).denote := by
  have hstart : Nat.toDigits 10 r.start.toNat ∈ (port P).denote := mem_port r.start.toNat_lt
  unfold PortRange.text
  split
  · exact mem_seq.mpr ⟨_, hstart, [], mem_opt.mpr (.inl rfl), List.append_nil _⟩
  · refine mem_seq.mpr ⟨_, hstart, _, mem_opt.mpr (.inr ?_), rfl⟩
    exact cons_mem_seq_cls.mpr ⟨by simp, mem_port r.stop.toNat_lt⟩

variable {ranges : List PortRange} {ports : PortSet} {p : UInt16}

theorem mem_portList : serialize ⟨r :: ranges⟩ ∈ (portList P).denote := by
  have hjoin : serialize ⟨r :: ranges⟩ =
      r.text ++ (ranges.map fun r => ',' :: r.text).flatten := by
    induction ranges generalizing r with
    | nil => simp [serialize]
    | cons r' ranges ih =>
      have htail := ih (r := r')
      simp only [serialize, List.map_cons] at htail ⊢
      rw [List.intercalate_cons_cons, htail]
      simp
  refine mem_seq.mpr ⟨_, mem_portRange, _, Language.join_mem_kstar fun chunk hchunk => ?_,
    hjoin.symm⟩
  obtain ⟨r', -, rfl⟩ := List.mem_map.mp hchunk
  have hspace : [] ∈ (space.star).denote := mem_star_cls.mpr (by simp)
  refine mem_seq.mpr ⟨[], hspace, _, cons_mem_seq_cls.mpr ⟨by simp, ?_⟩, rfl⟩
  exact mem_seq.mpr ⟨[], hspace, _, mem_portRange, rfl⟩

theorem serialize_pattern (ports : PortSet) : portSetPattern P ports.serialize = true := by
  obtain ⟨ranges⟩ := ports
  cases ranges with
  | nil => rfl
  | cons r ranges =>
    simp [portSetPattern, anchored, accepts_iff.mpr mem_portList]

/-! ### Reading it back -/

theorem chars_of_text : ∀ c ∈ r.text, c.isDigit = true ∨ c = '-' := by
  have hdigit : ∀ n, ∀ c ∈ Nat.toDigits 10 n, c.isDigit = true := fun n c hc =>
    Nat.isDigit_of_mem_toDigits (by decide) le_rfl hc
  unfold PortRange.text
  split
  · exact fun c hc => .inl (hdigit _ c hc)
  intro c hc
  rcases List.mem_append.mp hc with hc | hc
  · exact .inl (hdigit _ c hc)
  · exact (List.mem_cons.mp hc).symm.imp_left (hdigit _ c)

theorem text_clear : ∀ c ∈ r.text, isWhitespace c = false := by
  intro c hc
  rcases chars_of_text c hc with hdigit | rfl
  · exact not_whitespace_of_isDigit hdigit
  · decide

theorem text_ne_nil : r.text ≠ [] := by
  unfold PortRange.text
  split <;> simp [Nat.toDigits_ne_nil]

theorem parsePart_text (h : r.start ≤ r.stop) : parsePart r.text = .ok r := by
  have hword : ∀ n : UInt16, DigitWord (Nat.toDigits 10 n.toNat) := fun n =>
    digitWord_toDigits n.toNat_lt
  have hread : ∀ n : UInt16, parseU16 (Nat.toDigits 10 n.toNat) = some n.toNat := fun n => by
    rw [(hword n).parse, decimal_toDigits]
  unfold PortRange.text
  split
  · next heq =>
    rw [parsePart_plain (hword _).no_dash]
    exact readRange_eq_ok.mpr ⟨_, _, hread _, hread _, le_rfl, by cases r; simp_all⟩
  · rw [parsePart_dash (hword _).no_dash, (hword _).trim, (hword _).trim]
    exact readRange_eq_ok.mpr ⟨_, _, hread _, hread _, h, by simp⟩

theorem listedParts_serialize (hne : ports.ranges ≠ []) :
    listedParts ports.serialize = ports.ranges.map PortRange.text := by
  have hcomma : ∀ text ∈ ports.ranges.map PortRange.text, ',' ∉ text := by
    intro text htext hcomma
    obtain ⟨r, -, rfl⟩ := List.mem_map.mp htext
    rcases chars_of_text ',' hcomma with hdigit | hdash
    · exact absurd hdigit (by decide)
    · exact absurd hdash (by decide)
  have htrim : (ports.ranges.map PortRange.text).map trim = ports.ranges.map PortRange.text := by
    simp [Function.comp_def, trim_of_clear text_clear]
  rw [listedParts, serialize, List.splitOn_intercalate ',' hcomma (by simpa using hne),
    htrim, List.filter_eq_self.mpr]
  intro text htext
  obtain ⟨r, -, rfl⟩ := List.mem_map.mp htext
  simpa using text_ne_nil

theorem mapM_parsePart (h : ∀ r ∈ ranges, r.start ≤ r.stop) :
    (ranges.map PortRange.text).mapM (fun part => (parsePart part).toOption) =
      some ranges := by
  induction ranges with
  | nil => rfl
  | cons r ranges ih =>
    obtain ⟨hr, hranges⟩ := List.forall_mem_cons.mp h
    rw [List.map_cons, List.mapM_cons, ih hranges, parsePart_text hr]
    rfl

theorem portSet_serialize (h : ∀ r ∈ ports.ranges, r.start ≤ r.stop) :
    Decode.portSet (.string (String.ofList ports.serialize)) = some ports := by
  obtain ⟨ranges⟩ := ports
  cases ranges with
  | nil => rfl
  | cons r ranges =>
    have hparts : listedParts (serialize ⟨r :: ranges⟩) = _ :=
      listedParts_serialize (List.cons_ne_nil r ranges)
    have hparse : parse (serialize ⟨r :: ranges⟩) = .ok ⟨r :: ranges⟩ :=
      parse_eq_ok.mpr (by rw [hparts]; exact mapM_parsePart h)
    have hblank : trim (serialize ⟨r :: ranges⟩) ≠ [] := by
      intro hnil
      obtain ⟨c, hc⟩ := List.exists_mem_of_ne_nil _ (text_ne_nil (r := r))
      have hmem : c ∈ serialize ⟨r :: ranges⟩ :=
        mem_intercalate.mpr (.inr ⟨r.text, by simp, hc⟩)
      simpa [text_clear c hc] using trim_eq_nil_iff.mp hnil c hmem
    simp [Decode.portSet, Decode.text, hblank, hparse, Except.toOption]

/-- A part of a text names a port. -/
def Names (part : List Char) (p : UInt16) : Prop :=
  ('-' ∉ part ∧ parseU16 part = some p.toNat) ∨ ∃ a b lo hi, '-' ∉ a ∧ part = a ++ '-' :: b ∧
    parseU16 (trim a) = some lo ∧ parseU16 (trim b) = some hi ∧ lo ≤ p.toNat ∧ p.toNat ≤ hi

theorem between_iff {lo hi : ℕ} (hlo : lo < 2 ^ 16) (hhi : hi < 2 ^ 16) :
    (UInt16.ofNat lo ≤ p ∧ p ≤ UInt16.ofNat hi) ↔ lo ≤ p.toNat ∧ p.toNat ≤ hi := by
  rw [UInt16.le_iff_toNat_le, UInt16.le_iff_toNat_le, UInt16.toNat_ofNat_of_lt' hlo,
    UInt16.toNat_ofNat_of_lt' hhi]

theorem parsePart_names (h : parsePart part = .ok r) :
    (r.start ≤ p ∧ p ≤ r.stop) ↔ Names part p := by
  unfold Names
  rcases cut_cases '-' part with hdash | ⟨a, b, ha, rfl⟩
  · rw [parsePart_plain hdash] at h
    obtain ⟨lo, hi, hlo, hhi, -, rfl⟩ := readRange_eq_ok.mp h
    obtain rfl : lo = hi := Option.some.inj (hlo.symm.trans hhi)
    rw [between_iff (lt_of_parseU16 hlo) (lt_of_parseU16 hlo), ← le_antisymm_iff, hlo]
    constructor
    · rintro rfl
      exact .inl ⟨hdash, rfl⟩
    · rintro (⟨-, heq⟩ | ⟨a, b, _, _, -, rfl, -⟩)
      · exact Option.some.inj heq
      · simp at hdash
  rw [parsePart_dash ha] at h
  obtain ⟨lo, hi, hlo, hhi, -, rfl⟩ := readRange_eq_ok.mp h
  rw [between_iff (lt_of_parseU16 hlo) (lt_of_parseU16 hhi)]
  constructor
  · rintro ⟨hle, hge⟩
    exact .inr ⟨a, b, lo, hi, ha, rfl, hlo, hhi, hle, hge⟩
  rintro (⟨hdash, -⟩ | ⟨a', b', lo', hi', ha', heq, hlo', hhi', hle, hge⟩)
  · simp at hdash
  obtain ⟨rfl, rfl⟩ := cut_inj ha ha' heq
  cases hlo.symm.trans hlo'
  cases hhi.symm.trans hhi'
  exact ⟨hle, hge⟩

/-- A list of ranges that are not empty is read back from its text, and the text matches the pattern
of the schema. A text that can be read has the ports that its parts name, or all if it names none.
-/
theorem portSet_text :
    (∀ ports : PortSet, (∀ r ∈ ports.ranges, r.start ≤ r.stop) →
      Decode.portSet (.string (String.ofList ports.serialize)) = some ports ∧
        ∀ P, portSetPattern P ports.serialize = true) ∧
    ∀ s ports, parse s = .ok ports → ∀ p, ports.contains p = true ↔
      listedParts s = [] ∨ ∃ part ∈ listedParts s, Names part p := by
  refine ⟨fun ports h => ⟨portSet_serialize h, fun P => serialize_pattern ports⟩, ?_⟩
  intro s ports h p
  have hmap := parse_eq_ok.mp h
  simp only [contains, Bool.or_eq_true, List.isEmpty_iff, List.any_eq_true,
    Bool.and_eq_true, decide_eq_true_eq]
  rw [mapM_nil_iff hmap]
  refine or_congr_right ⟨?_, ?_⟩
  · rintro ⟨r, hr, hp⟩
    obtain ⟨part, hpart, hread⟩ := (mem_mapM hmap).mp hr
    exact ⟨part, hpart, (parsePart_names (toOption_eq_some.mp hread)).mp hp⟩
  · rintro ⟨part, hpart, hnames⟩
    obtain ⟨r, hread⟩ := Option.isSome_iff_exists.mp
      (isSome_mapM.mp (Option.isSome_of_eq_some hmap) part hpart)
    exact ⟨r, (mem_mapM hmap).mpr ⟨part, hpart, hread⟩,
      (parsePart_names (toOption_eq_some.mp hread)).mpr hnames⟩

end Avon.Policy
