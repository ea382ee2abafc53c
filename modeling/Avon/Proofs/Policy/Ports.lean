import Avon.Lib.Cut
import Avon.Lib.Except
import Avon.Policy.Decode
import Avon.Policy.Schema

/-!
# Port lists, by the schema and by the parser

A text that matches the pattern of the schema is cut into parts at its commas. Each part is a range
between blanks (`Item`), and without foreign digits and blanks the range is all that is left of it
after trimming.
-/

set_option autoImplicit false

namespace Avon.Policy

open Avon.Lib Computability PortSet Schema Pattern Decode

/-! ### Characters and numbers -/

variable {s : List Char} {c : Char} {n : ℕ}

theorem isDigit_iff : c.isDigit = true ↔ 48 ≤ c.toNat ∧ c.toNat ≤ 57 := by
  simp only [Char.isDigit, Bool.and_eq_true, decide_eq_true_eq, ge_iff_le,
    UInt32.le_iff_toNat_le]
  exact Iff.rfl

def decimal (s : List Char) : ℕ := s.foldl (fun n c => 10 * n + (c.toNat - '0'.toNat)) 0

theorem parseDigits_eq_some : parseDigits s = some n ↔
    s ≠ [] ∧ (∀ c ∈ s, c.isDigit = true) ∧ decimal s = n := by
  have hfold : ∀ (s : List Char) (m : ℕ), s.foldl (fun acc c => acc.bind fun n =>
      if c.isDigit then some (10 * n + (c.toNat - '0'.toNat)) else none) (some m) = some n ↔
      (∀ c ∈ s, c.isDigit = true) ∧ s.foldl (fun n c => 10 * n + (c.toNat - '0'.toNat)) m = n := by
    intro s
    induction s with
    | nil => simp
    | cons c s ih =>
      intro m
      rw [List.foldl_cons, List.foldl_cons, List.forall_mem_cons, Option.bind_some]
      by_cases hc : c.isDigit = true
      · rw [if_pos hc, ih]
        simp [hc]
      · -- `none` stays `none`
        simp [hc, List.foldl_fixed' (a := none)]
  cases s with
  | nil => simp [parseDigits]
  | cons c s => exact (hfold (c :: s) 0).trans (by simp [decimal])

theorem chars_of_parseU16 (h : parseU16 s = some n) : ∀ c ∈ s, c.isDigit = true ∨ c = '+' := by
  unfold parseU16 at h
  obtain ⟨hdigits, -⟩ := Option.filter_eq_some_iff.mp h
  split at hdigits
  · obtain ⟨-, hdigits, -⟩ := parseDigits_eq_some.mp hdigits
    exact List.forall_mem_cons.mpr ⟨.inr rfl, fun c hc => .inl (hdigits c hc)⟩
  · obtain ⟨-, hdigits, -⟩ := parseDigits_eq_some.mp hdigits
    exact fun c hc => .inl (hdigits c hc)

/-! ### Trimming -/

theorem mem_dropWhile (hc : c ∈ s) : isWhitespace c = true ∨ c ∈ s.dropWhile isWhitespace := by
  rw [← List.takeWhile_append_dropWhile (p := isWhitespace) (l := s)] at hc
  rcases List.mem_append.mp hc with hc | hc
  · exact .inl (List.mem_takeWhile_imp hc)
  · exact .inr hc

theorem mem_trim (hc : c ∈ s) : isWhitespace c = true ∨ c ∈ trim s := by
  rcases mem_dropWhile hc with hblank | hc
  · exact .inl hblank
  rcases mem_dropWhile (List.mem_reverse.mpr hc) with hblank | hc
  · exact .inl hblank
  · exact .inr (List.mem_reverse.mpr hc)

theorem trim_eq {l m r : List Char} (hl : ∀ c ∈ l, isWhitespace c = true)
    (hm : ∀ c ∈ m, isWhitespace c = false) (hr : ∀ c ∈ r, isWhitespace c = true) :
    trim (l ++ m ++ r) = m := by
  have hright : ((m ++ r).reverse.dropWhile isWhitespace).reverse = m := by
    rw [List.reverse_append, List.dropWhile_append_of_pos (by simpa using hr),
      List.reverse_eq_iff, List.dropWhile_eq_self_iff]
    exact fun _ => by simp [hm]
  rw [trim, List.append_assoc, List.dropWhile_append_of_pos hl]
  cases m with
  | nil => simp [List.dropWhile_eq_nil_iff.mpr hr]
  | cons c m =>
    rwa [List.cons_append, List.dropWhile_cons_of_neg (by simp [hm c List.mem_cons_self])]

theorem trim_of_clear (h : ∀ c ∈ s, isWhitespace c = false) : trim s = s := by
  simpa using trim_eq (l := []) (r := []) (by simp) h (by simp)

/-! ### The pattern of one port -/

section Patterns

variable {P : Python}

variable {w part a b : List Char}

theorem isDecimal_of_between (hlo : 48 ≤ c.toNat) (hhi : c.toNat ≤ 57) :
    P.isDecimal c = true := by
  rw [P.decimal_ascii c (by omega)]
  exact isDigit_iff.mpr ⟨hlo, hhi⟩

/-- A word of decimal digits that writes a port, if the digits are those of ASCII. -/
structure PortWord (P : Python) (w : List Char) : Prop where
  nonempty : w ≠ []
  decimal : ∀ c ∈ w, P.isDecimal c = true
  bound : (∀ c ∈ w, c.isDigit = true) → Policy.decimal w < 2 ^ 16

theorem portWord_of_mem (h : w ∈ (port P).denote) : PortWord P w := by
  -- a word of fewer than five letters is small enough, and none has more
  rcases w with _ | ⟨a, _ | ⟨b, _ | ⟨c, _ | ⟨d, _ | ⟨e, _ | ⟨f, w⟩⟩⟩⟩⟩⟩
  all_goals simp [port, digit, char, range, times] at h
  case cons.cons.cons.cons.cons.nil =>
    rcases h with ⟨rfl, rfl, rfl, rfl, he⟩ | ⟨rfl, rfl, rfl, hd, he⟩ | ⟨rfl, rfl, hc, hd, he⟩ |
      ⟨rfl, hb, hc, hd, he⟩ | ⟨ha, hb, hc, hd, he⟩
    all_goals
      refine ⟨List.cons_ne_nil _ _, ?_, fun hdigits => ?_⟩
      · simp (disch := first | decide | omega) [*, isDecimal_of_between]
      · simp [isDigit_iff, decimal] at hdigits ⊢
        omega
  all_goals
    refine ⟨List.cons_ne_nil _ _, by simpa using h, fun hdigits => ?_⟩
    simp [isDigit_iff, decimal] at hdigits ⊢
    omega

def RangeWord (P : Python) (m : List Char) : Prop :=
  ∃ x, PortWord P x ∧ (m = x ∨ ∃ y, PortWord P y ∧ m = x ++ '-' :: y)

theorem rangeWord_of_mem {m : List Char} (h : m ∈ (portRange P).denote) : RangeWord P m := by
  obtain ⟨x, hx, rest, hrest, rfl⟩ := mem_seq.mp h
  refine ⟨x, portWord_of_mem hx, ?_⟩
  rcases mem_opt.mp hrest with rfl | hrest
  · exact .inl (List.append_nil x)
  simp only [char, mem_seq_cls, decide_eq_true_eq] at hrest
  obtain ⟨_, y, rfl, hy, rfl⟩ := hrest
  exact .inr ⟨y, portWord_of_mem hy, rfl⟩

theorem not_isDecimal (hascii : c.toNat < 128) (hdigit : c.isDigit = false) :
    P.isDecimal c = false := by
  rw [P.decimal_ascii c hascii, hdigit]

theorem RangeWord.chars {m : List Char} (h : RangeWord P m) :
    ∀ c ∈ m, P.isDecimal c = true ∨ c = '-' := by
  obtain ⟨x, hx, rfl | ⟨y, hy, rfl⟩⟩ := h
  · exact fun c hc => .inl (hx.decimal c hc)
  intro c hc
  rcases List.mem_append.mp hc with hc | hc
  · exact .inl (hx.decimal c hc)
  rcases List.mem_cons.mp hc with rfl | hc
  · exact .inr rfl
  · exact .inl (hy.decimal c hc)

/-! ### Parts -/

def Item (P : Python) (part : List Char) : Prop :=
  ∃ l m r, part = l ++ m ++ r ∧ (∀ c ∈ l, pySpace c = true) ∧ RangeWord P m ∧
    ∀ c ∈ r, pySpace c = true

theorem Item.chars (h : Item P part) :
    ∀ c ∈ part, pySpace c = true ∨ P.isDecimal c = true ∨ c = '-' := by
  obtain ⟨l, m, r, rfl, hl, hm, hr⟩ := h
  intro c hc
  simp only [List.mem_append] at hc
  rcases hc with (hc | hc) | hc
  · exact .inl (hl c hc)
  · exact .inr (hm.chars c hc)
  · exact .inl (hr c hc)

theorem Item.no_comma (h : Item P part) : ',' ∉ part := by
  intro hc
  rcases h.chars ',' hc with hspace | hdecimal | hdash
  · exact absurd hspace (by decide)
  · rw [not_isDecimal (by decide) (by decide)] at hdecimal
    cases hdecimal
  · exact absurd hdash (by decide)

theorem items_of_mem {tail : List Char} (h : s ∈ (portList P).denote)
    (htail : ∀ c ∈ tail, pySpace c = true) : ∀ part ∈ (s ++ tail).splitOn ',', Item P part := by
  obtain ⟨m₀, hm₀, rest, hrest, rfl⟩ := mem_seq.mp h
  obtain ⟨chunks, rfl, hchunks⟩ := Language.mem_kstar.mp hrest
  -- by induction on the chunks that begin with a comma; `l` is what stands before the next range
  have hall : ∀ (chunks : List (List Char)) (l m : List Char),
      (∀ chunk ∈ chunks, chunk ∈ (seq space.star (.seq (char ',')
        (.seq space.star (portRange P)))).denote) →
      (∀ c ∈ l, pySpace c = true) → RangeWord P m →
      ∀ part ∈ (l ++ m ++ chunks.flatten ++ tail).splitOn ',', Item P part := by
    intro chunks
    induction chunks with
    | nil =>
      intro l m _ hl hm part hpart
      have hitem : Item P (l ++ m ++ tail) := ⟨l, m, tail, rfl, hl, hm, htail⟩
      rw [List.flatten_nil, List.append_nil, List.splitOn_eq_singleton hitem.no_comma] at hpart
      rw [List.mem_singleton.mp hpart]
      exact hitem
    | cons chunk chunks ih =>
      intro l m hmem hl hm part hpart
      obtain ⟨hchunk, hothers⟩ := List.forall_mem_cons.mp hmem
      obtain ⟨r, hr, tail', htail', rfl⟩ := mem_seq.mp hchunk
      simp only [char, mem_seq_cls, decide_eq_true_eq] at htail'
      obtain ⟨_, v, rfl, hv, rfl⟩ := htail'
      obtain ⟨l', hl', m', hm', rfl⟩ := mem_seq.mp hv
      have hitem : Item P (l ++ m ++ r) := ⟨l, m, r, rfl, hl, hm, mem_star_cls.mp hr⟩
      have hcut : l ++ m ++ ((r ++ ',' :: (l' ++ m')) :: chunks).flatten ++ tail =
          (l ++ m ++ r) ++ ',' :: (l' ++ m' ++ chunks.flatten ++ tail) := by simp
      rw [hcut, List.splitOn, List.splitOnP_append_cons _ _ (by simp), ← List.splitOn,
        List.splitOn_eq_singleton hitem.no_comma] at hpart
      rcases List.mem_append.mp hpart with hpart | hpart
      · rw [List.mem_singleton.mp hpart]
        exact hitem
      · exact ih l' m' hothers (mem_star_cls.mp hl') (rangeWord_of_mem hm') part hpart
  have hstart := hall chunks [] m₀ hchunks (fun c hc => nomatch hc) (rangeWord_of_mem hm₀)
  simpa using hstart

/-! ### What the parser makes of a part -/

def Readable (c : Char) : Prop :=
  c.isDigit = true ∨ c = '-' ∨ c = ',' ∨ isWhitespace c = true

def Reversed (part : List Char) : Prop :=
  '-' ∈ trim part ∧
    decimal ((trim part).dropWhile (· ≠ '-')).tail < decimal ((trim part).takeWhile (· ≠ '-'))

instance (c : Char) : Decidable (Readable c) := inferInstanceAs (Decidable (_ ∨ _))

instance (part : List Char) : Decidable (Reversed part) := inferInstanceAs (Decidable (_ ∧ _))

/-- The end of `parsePart`, for the texts of the two ports. -/
def readRange (part a b : List Char) : Except SpecError PortRange :=
  match parseU16 a, parseU16 b with
  | some lo, some hi =>
    if lo > hi then .error (.port (String.ofList part)) else .ok ⟨.ofNat lo, .ofNat hi⟩
  | _, _ => .error (.port (String.ofList part))

theorem readRange_eq_ok {r : PortRange} : readRange part a b = .ok r ↔ ∃ lo hi,
    parseU16 a = some lo ∧ parseU16 b = some hi ∧ lo ≤ hi ∧ r = ⟨.ofNat lo, .ofNat hi⟩ := by
  unfold readRange
  split
  · next lo hi hlo hhi =>
    rw [ite_error_eq_ok, not_lt, hlo, hhi]
    simp [eq_comm]
  · next hnone =>
    simp only [reduceCtorEq, false_iff]
    rintro ⟨lo, hi, hlo, hhi, -⟩
    exact hnone lo hi hlo hhi

theorem parsePart_plain (h : '-' ∉ part) :
    parsePart part = readRange part part part := by
  simp only [parsePart, span_ne_all h]
  rfl

theorem parsePart_dash (h : '-' ∉ a) :
    parsePart (a ++ '-' :: b) = readRange (a ++ '-' :: b) (trim a) (trim b) := by
  simp only [parsePart, span_ne h]
  rfl

theorem chars_of_parsePart {r : PortRange} (h : parsePart part = .ok r) :
    ∀ c ∈ part, Readable c ∨ c = '+' := by
  have hnumber : ∀ {a : List Char} {n : ℕ}, parseU16 (trim a) = some n →
      ∀ c ∈ a, Readable c ∨ c = '+' := by
    intro a n hn c hc
    rcases mem_trim hc with hblank | hc
    · exact .inl (.inr (.inr (.inr hblank)))
    · exact (chars_of_parseU16 hn c hc).imp .inl id
  rcases cut_cases '-' part with hdash | ⟨a, b, ha, rfl⟩
  · rw [parsePart_plain hdash] at h
    obtain ⟨lo, hi, hlo, -⟩ := readRange_eq_ok.mp h
    exact fun c hc => (chars_of_parseU16 hlo c hc).imp .inl id
  · rw [parsePart_dash ha] at h
    obtain ⟨lo, hi, hlo, hhi, -⟩ := readRange_eq_ok.mp h
    intro c hc
    rcases List.mem_append.mp hc with hc | hc
    · exact hnumber hlo c hc
    rcases List.mem_cons.mp hc with rfl | hc
    · exact .inl (.inr (.inl rfl))
    · exact hnumber hhi c hc

structure DigitWord (w : List Char) : Prop where
  nonempty : w ≠ []
  digits : ∀ c ∈ w, c.isDigit = true
  bound : decimal w < 2 ^ 16

theorem DigitWord.no_dash (h : DigitWord w) : '-' ∉ w := by
  intro hc
  cases h.digits '-' hc

theorem not_whitespace_of_isDigit (h : c.isDigit = true) : isWhitespace c = false := by
  obtain ⟨hlo, hhi⟩ := isDigit_iff.mp h
  simp only [isWhitespace, Bool.or_eq_false_iff, Bool.and_eq_false_imp, decide_eq_true_eq,
    decide_eq_false_iff_not]
  omega

theorem DigitWord.trim (h : DigitWord w) : trim w = w :=
  trim_of_clear fun c hc => not_whitespace_of_isDigit (h.digits c hc)

theorem DigitWord.parse (h : DigitWord w) : parseU16 w = some (decimal w) := by
  unfold parseU16
  split
  · cases h.digits '+' List.mem_cons_self
  · rw [parseDigits_eq_some.mpr ⟨h.nonempty, h.digits, rfl⟩]
    simpa [Option.filter] using h.bound

theorem not_space_of_isDigit (h : c.isDigit = true) : pySpace c = false := by
  obtain ⟨hlo, hhi⟩ := isDigit_iff.mp h
  simp only [pySpace, not_whitespace_of_isDigit h, Bool.false_or, Bool.and_eq_false_imp,
    decide_eq_true_eq, decide_eq_false_iff_not]
  omega

theorem Readable.whitespace (h : Readable c) (hspace : pySpace c = true) :
    isWhitespace c = true := by
  rcases h with hdigit | rfl | rfl | hblank
  · rw [not_space_of_isDigit hdigit] at hspace
    cases hspace
  · exact absurd hspace (by decide)
  · exact absurd hspace (by decide)
  · exact hblank

theorem Readable.isDigit (h : Readable c) (hdecimal : P.isDecimal c = true) :
    c.isDigit = true := by
  rcases h with hdigit | rfl | rfl | hblank
  · exact hdigit
  · rw [not_isDecimal (by decide) (by decide)] at hdecimal
    cases hdecimal
  · rw [not_isDecimal (by decide) (by decide)] at hdecimal
    cases hdecimal
  · have hspace : pySpace c = true := by simp [pySpace, hblank]
    rw [P.decimal_not_space c hdecimal] at hspace
    cases hspace

theorem PortWord.digitWord (h : PortWord P w) (hreadable : ∀ c ∈ w, Readable c) :
    DigitWord w :=
  have hdigits : ∀ c ∈ w, c.isDigit = true := fun c hc => (hreadable c hc).isDigit (h.decimal c hc)
  ⟨h.nonempty, hdigits, h.bound hdigits⟩

/-- A readable part: what is left of it after trimming, and when it can be read. -/
theorem Item.parse (h : Item P part) (hreadable : ∀ c ∈ part, Readable c) :
    Policy.trim part ≠ [] ∧
      ((∃ r, parsePart (Policy.trim part) = .ok r) ↔ ¬ Reversed part) := by
  obtain ⟨l, m, r, rfl, hl, ⟨x, hx, hm⟩, hr⟩ := h
  have hreadableM : ∀ c ∈ m, Readable c := fun c hc => hreadable c (by simp [hc])
  have hblankL : ∀ c ∈ l, isWhitespace c = true := fun c hc =>
    Readable.whitespace (hreadable c (by simp [hc])) (hl c hc)
  have hblankR : ∀ c ∈ r, isWhitespace c = true := fun c hc =>
    Readable.whitespace (hreadable c (by simp [hc])) (hr c hc)
  rcases hm with rfl | ⟨y, hy, rfl⟩
  · -- one port
    have hword := hx.digitWord hreadableM
    have htrim : Policy.trim (l ++ m ++ r) = m := trim_eq hblankL
      (fun c hc => not_whitespace_of_isDigit (hword.digits c hc)) hblankR
    unfold Reversed
    rw [htrim, parsePart_plain hword.no_dash]
    have hread : ∃ r, readRange m m m = .ok r :=
      ⟨_, readRange_eq_ok.mpr ⟨_, _, hword.parse, hword.parse, le_rfl, rfl⟩⟩
    exact ⟨hword.nonempty, iff_of_true hread fun hreversed => hword.no_dash hreversed.1⟩
  · -- two ports
    have hwordX := hx.digitWord fun c hc => hreadableM c (by simp [hc])
    have hwordY := hy.digitWord fun c hc => hreadableM c (by simp [hc])
    have hclear : ∀ c ∈ x ++ '-' :: y, isWhitespace c = false := by
      intro c hc
      rcases List.mem_append.mp hc with hc | hc
      · exact not_whitespace_of_isDigit (hwordX.digits c hc)
      rcases List.mem_cons.mp hc with rfl | hc
      · decide
      · exact not_whitespace_of_isDigit (hwordY.digits c hc)
    have htrim : Policy.trim (l ++ (x ++ '-' :: y) ++ r) = x ++ '-' :: y :=
      trim_eq hblankL hclear hblankR
    unfold Reversed
    rw [htrim, takeWhile_ne hwordX.no_dash, dropWhile_ne hwordX.no_dash,
      parsePart_dash hwordX.no_dash, hwordX.trim, hwordY.trim]
    simp [readRange_eq_ok, hwordX.parse, hwordY.parse]

/-! ### The whole text -/

/-- A text of ports that the parser can read: ASCII digits, blanks that it trims, and no range
reversed. -/
def PortsReady (s : List Char) : Prop :=
  (∀ c ∈ s, Readable c) ∧ ∀ part ∈ s.splitOn ',', ¬ Reversed part

instance (s : List Char) : Decidable (PortsReady s) := inferInstanceAs (Decidable (_ ∧ _))

theorem mem_intercalate {parts : List (List Char)} :
    c ∈ [','].intercalate parts ↔ (c = ',' ∧ 1 < parts.length) ∨ ∃ part ∈ parts, c ∈ part := by
  induction parts with
  | nil => simp
  | cons part parts ih =>
    cases parts with
    | nil => simp
    | cons next parts =>
      simp only [List.intercalate_cons_cons, List.mem_append, List.mem_singleton, ih,
        List.exists_mem_cons_iff, List.length_cons]
      by_cases hc : c = ',' <;> simp [hc]

theorem mem_splitOn (hc : c ∈ s) :
    c = ',' ∨ ∃ part ∈ s.splitOn ',', c ∈ part := by
  have hs : [','].intercalate (s.splitOn ',') = s := List.intercalate_splitOn ','
  rw [← hs, mem_intercalate] at hc
  exact hc.imp_left And.left

theorem mem_of_splitOn (hpart : part ∈ s.splitOn ',')
    (hc : c ∈ part) : c ∈ s := by
  have hmem := mem_intercalate.mpr (.inr ⟨part, hpart, hc⟩)
  rwa [List.intercalate_splitOn] at hmem

/-- The parts of a text that are not blank. -/
def listedParts (s : List Char) : List (List Char) :=
  ((s.splitOn ',').map trim).filter fun part => !part.isEmpty

theorem mem_listedParts (hpart : part ∈ s.splitOn ',') (hne : trim part ≠ []) :
    trim part ∈ listedParts s :=
  List.mem_filter.mpr ⟨List.mem_map_of_mem hpart, by simpa using hne⟩

theorem parse_eq_ok {ports : PortSet} : parse s = .ok ports ↔
    (listedParts s).mapM (fun part => (parsePart part).toOption) = some ports.ranges := by
  obtain ⟨ranges⟩ := ports
  rw [← toOption_mapM, toOption_eq_some, parse, bind_eq_ok]
  constructor
  · rintro ⟨ranges', hranges, heq⟩
    cases heq
    exact hranges
  · exact fun hranges => ⟨ranges, hranges, rfl⟩

theorem parse_isSome_iff : (parse s).toOption.isSome ↔
    ∀ part ∈ listedParts s, ∃ r, parsePart part = .ok r := by
  have hmap := isSome_mapM (f := fun part => (parsePart part).toOption) (l := listedParts s)
  simp only [Option.isSome_iff_exists, toOption_eq_some] at hmap
  simp only [← hmap, Option.isSome_iff_exists, toOption_eq_some, parse_eq_ok]
  tauto

theorem of_anchored {r : Pattern Char} (h : anchored r s = true) :
    ∃ word tail, s = word ++ tail ∧ word ∈ r.denote ∧ ∀ c ∈ tail, pySpace c = true := by
  simp only [anchored, Bool.or_eq_true, Bool.and_eq_true, accepts_iff,
    decide_eq_true_eq] at h
  rcases h with h | ⟨hlast, h⟩
  · exact ⟨s, [], (List.append_nil s).symm, h, fun _ hc => nomatch hc⟩
  refine ⟨s.dropLast, ['\n'], (List.dropLast_append_getLast? _ hlast).symm, h, ?_⟩
  intro c hc
  rw [List.mem_singleton.mp hc]
  decide

theorem of_portSetPattern (h : portSetPattern P s = true) :
    (∀ c ∈ s, pySpace c = true) ∨ ∀ part ∈ s.splitOn ',', Item P part := by
  rcases Bool.or_eq_true _ _ ▸ h with hblank | hlist
  · left
    obtain ⟨word, tail, rfl, hword, htail⟩ := of_anchored hblank
    intro c hc
    rcases List.mem_append.mp hc with hc | hc
    · exact mem_star_cls.mp hword c hc
    · exact htail c hc
  right
  obtain ⟨word, tail, rfl, hword, htail⟩ := of_anchored hlist
  exact items_of_mem hword htail

theorem chars_of_portSetPattern (h : portSetPattern P s = true) :
    '+' ∉ s := by
  intro hplus
  have hnot : ¬ (pySpace '+' = true ∨ P.isDecimal '+' = true ∨ '+' = '-') := by
    rw [not_isDecimal (by decide) (by decide)]
    decide
  rcases of_portSetPattern h with hblank | hitems
  · exact hnot (.inl (hblank '+' hplus))
  rcases mem_splitOn hplus with hcomma | ⟨part, hpart, hmem⟩
  · exact absurd hcomma (by decide)
  · exact hnot ((hitems part hpart).chars '+' hmem)

theorem readable_of_parse (hplus : '+' ∉ s)
    (h : (parse s).toOption.isSome) : ∀ c ∈ s, Readable c := by
  intro c hc
  rcases mem_splitOn hc with rfl | ⟨part, hpart, hmem⟩
  · exact .inr (.inr (.inl rfl))
  rcases mem_trim hmem with hblank | htrim
  · exact .inr (.inr (.inr hblank))
  obtain ⟨r, hread⟩ :=
    parse_isSome_iff.mp h _ (mem_listedParts hpart (List.ne_nil_of_mem htrim))
  rcases chars_of_parsePart hread c htrim with hreadable | rfl
  · exact hreadable
  · exact absurd hc hplus

theorem trim_eq_nil_iff : trim s = [] ↔ ∀ c ∈ s, isWhitespace c = true := by
  constructor
  · intro h c hc
    rcases mem_trim hc with hblank | hmem
    · exact hblank
    · rw [h] at hmem
      cases hmem
  intro h
  simpa using trim_eq (m := []) (r := []) h (by simp) (by simp)

theorem portSet_isSome_iff {s : String} (h : portSetPattern P s.toList = true) :
    (portSet (.string s)).isSome ↔ PortsReady s.toList := by
  have hplus := chars_of_portSetPattern h
  by_cases hblank : trim s.toList = []
  · have hall := trim_eq_nil_iff.mp hblank
    have hcomma : ',' ∉ s.toList := fun hc => absurd (hall ',' hc) (by decide)
    simp only [portSet, text, Option.bind_some, hblank, List.isEmpty_nil, ↓reduceIte,
      Option.isSome_some, true_iff]
    refine ⟨fun c hc => .inr (.inr (.inr (hall c hc))), ?_⟩
    rw [List.splitOn_eq_singleton hcomma]
    rintro part hpart ⟨hdash, -⟩
    rw [List.mem_singleton.mp hpart, hblank] at hdash
    cases hdash
  · have hparse : portSet (.string s) = (parse s.toList).toOption := by
      simp [portSet, text, hblank]
    rw [hparse]
    rcases of_portSetPattern h with hspace | hitems
    · -- blanks, and one of them is not trimmed
      have hforeign : ¬ ∀ c ∈ s.toList, Readable c := fun hreadable =>
        hblank (trim_eq_nil_iff.mpr fun c hc => (hreadable c hc).whitespace (hspace c hc))
      exact iff_of_false (fun hread => hforeign (readable_of_parse hplus hread))
        fun hready => hforeign hready.1
    have hparts : (∀ c ∈ s.toList, Readable c) → ∀ part ∈ s.toList.splitOn ',',
        trim part ≠ [] ∧ ((∃ r, parsePart (trim part) = .ok r) ↔ ¬ Reversed part) :=
      fun hreadable part hpart =>
        (hitems part hpart).parse fun c hc => hreadable c (mem_of_splitOn hpart hc)
    constructor
    · intro hread
      have hreadable := readable_of_parse hplus hread
      refine ⟨hreadable, fun part hpart => ?_⟩
      obtain ⟨hne, hiff⟩ := hparts hreadable part hpart
      exact hiff.mp (parse_isSome_iff.mp hread _ (mem_listedParts hpart hne))
    rintro ⟨hreadable, hordered⟩
    refine parse_isSome_iff.mpr fun part hpart => ?_
    obtain ⟨part, hmem, rfl⟩ := List.mem_map.mp (List.mem_filter.mp hpart).1
    exact (hparts hreadable part hmem).2.mpr (hordered part hmem)

theorem isAll_iff {s : String} {ports : PortSet} (h : portSetPattern P s.toList = true)
    (hread : portSet (.string s) = some ports) :
    ports.isAll = true ↔ trim s.toList = [] := by
  by_cases hblank : trim s.toList = []
  · simp only [portSet, text, Option.bind_some, hblank, List.isEmpty_nil, ↓reduceIte,
      Option.some.injEq] at hread
    subst hread
    simp [isAll, hblank]
  have hreadable := ((portSet_isSome_iff h).mp (by simp [hread])).1
  rcases of_portSetPattern h with hspace | hitems
  · exact absurd (trim_eq_nil_iff.mpr fun c hc => (hreadable c hc).whitespace (hspace c hc)) hblank
  -- the first part is not blank, so that it gives a range
  obtain ⟨part, hpart⟩ := List.exists_mem_of_ne_nil _ (List.splitOn_ne_nil ',' s.toList)
  have hne := ((hitems part hpart).parse fun c hc => hreadable c (mem_of_splitOn hpart hc)).1
  have hparse : parse s.toList = .ok ports := by
    simpa [portSet, text, hblank, toOption_eq_some] using hread
  rw [isAll, List.isEmpty_iff, mapM_nil_iff (parse_eq_ok.mp hparse)]
  exact iff_of_false (List.ne_nil_of_mem (mem_listedParts hpart hne)) hblank

end Patterns

end Avon.Policy
